import Mathlib.Algebra.Ring.Int.Defs
import Mathlib.Data.Rat.Defs

namespace OpenBroadcast

/-- A JSON value, with its numbers as they are written: with or without a fraction. The members of
an object are in the order of the text. -/
inductive Json where
  | null
  | bool (b : Bool)
  | integer (n : Int)
  | decimal (value : ℚ)
  | string (text : String)
  | array (elements : List Json)
  | object (members : List (String × Json))

namespace Json

/-- The last of the members with a name counts, to a script as to a parser that fills a map. Other
values have no members. -/
def member (name : String) : Json → Option Json
  | object members => members.reverse.lookup name
  | _ => none

/-- A property that is left out or `null`. -/
def orElse (default : Json) : Option Json → Json
  | none | some null => default
  | some value => value

/-- What a script takes for true, where it does not find a property too. -/
def truthy : Option Json → Bool
  | none | some null => false
  | some (bool b) => b
  | some (integer n) => n ≠ 0
  | some (decimal value) => value ≠ 0
  | some (string text) => text ≠ ""
  | some (array _) | some (object _) => true

/-- `value === text`. -/
def hasText (value : Option Json) (text : String) : Bool :=
  match value with
  | some (string s) => s == text
  | _ => false

def asU64 : Json → Option Nat
  | integer n => if 0 ≤ n ∧ n < 2^64 then some n.toNat else none
  | _ => none

def asNumber : Json → Option ℚ
  | integer n => some n
  | decimal value => some value
  | _ => none

mutual

/-- The text that a script makes of a value, given how it writes numbers. -/
def text (numberText : ℚ → String) : Json → String
  | null => "null"
  | bool b => if b then "true" else "false"
  | integer n => numberText n
  | decimal value => numberText value
  | string s => s
  | array elements => ",".intercalate (texts numberText elements)
  | object _ => "[object Object]"

/-- Those of the elements of an array, where `null` leaves nothing. -/
def texts (numberText : ℚ → String) : List Json → List String
  | [] => []
  | null::elements => ""::texts numberText elements
  | element::elements => text numberText element::texts numberText elements

end

/-- A value in a template literal. -/
def template (numberText : ℚ → String) : Option Json → String
  | none => "undefined"
  | some value => value.text numberText

theorem template_none (numberText : ℚ → String) : template numberText none = "undefined" := rfl

section Members

variable {name name' : String} {value : Json} {members : List (String × Json)}

@[simp] theorem member_object_nil : (object []).member name = none := rfl

theorem member_object_cons_of_ne (hne : name ≠ name') :
    (object ((name',value)::members)).member name = (object members).member name := by
  have hbeq : (name == name') = false := by simpa using hne
  simp [member,List.lookup_append,List.lookup_cons,hbeq]

/-- A property that is not among the members is undefined. -/
theorem member_object_eq_none (h : name ∉ members.map Prod.fst) :
    (object members).member name = none := by
  induction members with
  | nil => rfl
  | cons m members ih =>
    rw [List.map_cons] at h
    have hne : name ≠ m.1 := List.ne_of_not_mem_cons h
    have hrest : name ∉ members.map Prod.fst := List.not_mem_of_not_mem_cons h
    rw [member_object_cons_of_ne hne]
    exact ih hrest

end Members

end Json

end OpenBroadcast
