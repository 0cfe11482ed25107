/-
Results with the events on the way to them.

The events that happened before a fault are kept.
-/

import ContractAtlas.Event
import ContractAtlas.Fault

namespace ContractAtlas

structure Journal (α : Type) where
  events : List Event
  outcome : Except Fault α

namespace Journal

variable {α β γ : Type}

protected def pure (value : α) : Journal α :=
  { events := [], outcome := .ok value }

protected def bind (first : Journal α) (next : α → Journal β) : Journal β :=
  match first.outcome with
  | .error fault => { events := first.events, outcome := .error fault }
  | .ok value =>
      { events := first.events ++ (next value).events
        outcome := (next value).outcome }

instance : Monad Journal where
  pure := Journal.pure
  bind := Journal.bind

def fail (fault : Fault) : Journal α :=
  { events := [], outcome := .error fault }

def ofExcept (outcome : Except Fault α) : Journal α :=
  { events := [], outcome := outcome }

def log (event : Event) : Journal Unit :=
  { events := [event], outcome := .ok () }

def logAll (events : List Event) : Journal Unit :=
  { events := events, outcome := .ok () }

theorem outcome_pure (value : α) :
    (pure value : Journal α).outcome = .ok value :=
  rfl

theorem outcome_ofExcept (outcome : Except Fault α) :
    (ofExcept outcome).outcome = outcome :=
  rfl

theorem outcome_bind (first : Journal α) (next : α → Journal β) :
    (first >>= next).outcome =
      first.outcome.bind fun value => (next value).outcome := by
  show (Journal.bind first next).outcome = _
  unfold Journal.bind
  cases first.outcome with
  | error fault => rfl
  | ok value => rfl

theorem bind_def (first : Journal α) (next : α → Journal β) :
    first >>= next = Journal.bind first next :=
  rfl

theorem map_id (journal : Journal α) : id <$> journal = journal := by
  obtain ⟨events, outcome⟩ := journal
  cases outcome with
  | error fault => rfl
  | ok value => exact congrArg (Journal.mk · (.ok value)) events.append_nil

theorem bind_assoc (first : Journal α) (second : α → Journal β)
    (third : β → Journal γ) :
    first >>= second >>= third =
      first >>= fun value => second value >>= third := by
  obtain ⟨events, outcome⟩ := first
  cases outcome with
  | error fault => rfl
  | ok value =>
      simp only [bind_def, Journal.bind]
      cases (second value).outcome with
      | error fault => rfl
      | ok found => simp only [List.append_assoc]

instance : LawfulMonad Journal :=
  LawfulMonad.mk' Journal map_id (fun _ _ => rfl) bind_assoc

theorem outcome_map (f : α → β) (journal : Journal α) :
    (f <$> journal).outcome = journal.outcome.map f := by
  rw [← bind_pure_comp, outcome_bind]
  cases journal.outcome with
  | error fault => rfl
  | ok value => rfl

end Journal

end ContractAtlas
