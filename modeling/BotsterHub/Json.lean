import Mathlib.Algebra.GroupWithZero.Nat
import Mathlib.Data.List.Basic

/-!
JSON values as the event plane and the session entities handle them: values are
copied, compared by field name, read by key and measured. Numbers are integers; no
modelled function computes with them.
-/

namespace BotsterHub

inductive Json where
  | null
  | bool (value : Bool)
  | num (value : Int)
  | str (value : String)
  | arr (items : List Json)
  | obj (fields : List (String × Json))
deriving Inhabited

namespace Json

def get? : Json → String → Option Json
  | obj fields, key => fields.lookup key
  | _, _ => none

def asStr? : Json → Option String
  | str value => some value
  | _ => none

def escapedLen (c : Char) : ℕ :=
  if c = '"' ∨ c = '\\' ∨ c = '\n' ∨ c = '\r' ∨ c = '\t' ∨ c.toNat = 8 ∨ c.toNat = 12 then 2
  else if c.toNat < 32 then 6
  else c.utf8Size

def strLen (s : String) : ℕ := 2 + (s.toList.map escapedLen).sum

mutual

/-- Length of `serde_json::to_vec`: the compact text, without blanks. -/
def encodedLen : Json → ℕ
  | null => 4
  | bool value => if value then 4 else 5
  | num value => (toString value).length
  | str value => strLen value
  | arr items => 2 + (items.length - 1) + itemsLen items
  | obj fields => 2 + (fields.length - 1) + fieldsLen fields

def itemsLen : List Json → ℕ
  | [] => 0
  | item :: items => encodedLen item + itemsLen items

def fieldsLen : List (String × Json) → ℕ
  | [] => 0
  | (key, value) :: fields => strLen key + 1 + encodedLen value + fieldsLen fields

end

mutual

/-- Equality of `serde_json::Value`. -/
def beq : Json → Json → Bool
  | null, null => true
  | bool a, bool b => a == b
  | num a, num b => a == b
  | str a, str b => a == b
  | arr a, arr b => itemsBeq a b
  | obj a, obj b => fieldsBeq a b
  | _, _ => false

def itemsBeq : List Json → List Json → Bool
  | [], [] => true
  | a :: as, b :: bs => beq a b && itemsBeq as bs
  | _, _ => false

def fieldsBeq : List (String × Json) → List (String × Json) → Bool
  | [], [] => true
  | (key, a) :: as, (key', b) :: bs => key == key' && beq a b && fieldsBeq as bs
  | _, _ => false

end

mutual

theorem beq_iff : ∀ a b : Json, beq a b = true ↔ a = b
  | null, b | bool _, b | num _, b | str _, b => by cases b <;> simp [beq]
  | arr as, b => by cases b <;> simp [beq, itemsBeq_iff as]
  | obj as, b => by cases b <;> simp [beq, fieldsBeq_iff as]

theorem itemsBeq_iff : ∀ as bs, itemsBeq as bs = true ↔ as = bs
  | [], bs => by cases bs <;> simp [itemsBeq]
  | a :: as, bs => by cases bs <;> simp [itemsBeq, beq_iff a, itemsBeq_iff as]

theorem fieldsBeq_iff : ∀ as bs, fieldsBeq as bs = true ↔ as = bs
  | [], bs => by cases bs <;> simp [fieldsBeq]
  | _ :: _, [] => by simp [fieldsBeq]
  | (_, a) :: as, (_, _) :: _ => by simp [fieldsBeq, beq_iff a, fieldsBeq_iff as]

end

instance : DecidableEq Json := fun a b => decidable_of_iff _ (beq_iff a b)

end Json

end BotsterHub
