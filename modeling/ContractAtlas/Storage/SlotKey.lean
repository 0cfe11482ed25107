/-
Slot keys: the index of a storage slot in base sixteen, padded to the 64
digits of a 32-byte word.
-/

import ContractAtlas.Fault
import ContractAtlas.Text.Integer

namespace ContractAtlas.Storage

def slotKey (index : Nat) : String :=
  String.ofList ('0' :: 'x' :: Text.paddedHex 64 index)

/-- The key of any integer; negative ones have none. -/
def slotKeyOf (index : Int) : Except Fault String :=
  match index with
  | .ofNat index => .ok (slotKey index)
  | .negSucc _ => .error (.negativeSlot index)

def slotIndex? (key : String) : Option Int :=
  Text.readHex key.toList

end ContractAtlas.Storage
