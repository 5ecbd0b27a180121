import Mathlib

/-!
# JSON documents

An object keeps its members in order; the documents the programs build have no member twice.
-/

namespace ControlPlane

/-- What holds of the characters of a text is decided over the text, not over all characters. -/
instance (priority := 2000) decidableForallMem {p : Char → Prop} [DecidablePred p] (cs : List Char) :
    Decidable (∀ c ∈ cs, p c) :=
  cs.decidableBAll p

inductive Json where
  | null
  | bool (b : Bool)
  | num (n : Int)
  | str (s : String)
  | arr (items : List Json)
  | obj (members : List (String × Json))

namespace Json

def lookup (name : String) : List (String × Json) → Option Json
  | [] => none
  | (key, value) :: rest => if key = name then some value else lookup name rest

def get (name : String) : Json → Option Json
  | .obj members => lookup name members
  | _ => none

def asBool : Json → Option Bool
  | .bool b => some b
  | _ => none

def asStr : Json → Option String
  | .str s => some s
  | _ => none

def asInt : Json → Option Int
  | .num n => some n
  | _ => none

def asNat : Json → Option Nat
  | .num (.ofNat n) => some n
  | _ => none

def ofOption {α : Type} (f : α → Json) : Option α → Json
  | some a => f a
  | none => .null

/-- The text of a scalar, as PostgreSQL's `->>` gives it. That of a nested document equals none of
the words it is compared with. -/
def text : Json → Option String
  | .str s => some s
  | .num n => some (toString n)
  | .bool b => some (if b then "true" else "false")
  | .null | .arr _ | .obj _ => none

/-- `->>`. -/
def textAt (name : String) (document : Json) : Option String := (document.get name).bind text

/-- `#>>` with a path of two names. -/
def textAtPath (outer inner : String) (document : Json) : Option String :=
  (document.get outer).bind (textAt inner)

def setMember (name : String) (value : Json) : List (String × Json) → List (String × Json)
  | [] => [(name, value)]
  | (key, old) :: rest =>
    if key = name then (name, value) :: rest else (key, old) :: setMember name value rest

def set (document : Json) (name : String) (value : Json) : Json :=
  match document with
  | .obj members => .obj (setMember name value members)
  | other => other

@[simp]
theorem lookup_setMember_self (name : String) (value : Json) (members : List (String × Json)) :
    lookup name (setMember name value members) = some value := by
  induction members with
  | nil => simp [setMember, lookup]
  | cons head rest ih =>
    obtain ⟨key, old⟩ := head
    by_cases heq : key = name
    · simp [setMember, lookup, heq]
    · simp [setMember, lookup, heq, ih]

variable {name other : String}

theorem lookup_setMember_of_ne (hne : other ≠ name) (value : Json) (members : List (String × Json)) :
    lookup other (setMember name value members) = lookup other members := by
  induction members with
  | nil => simp [setMember, lookup, hne.symm]
  | cons head rest ih =>
    obtain ⟨key, old⟩ := head
    by_cases heq : key = name
    · subst heq
      simp [setMember, lookup, hne.symm]
    · by_cases hother : key = other
      · subst hother
        simp [setMember, lookup, heq]
      · simp [setMember, lookup, heq, hother, ih]

theorem get_set_of_ne (hne : other ≠ name) (document value : Json) :
    (document.set name value).get other = document.get other := by
  cases document with
  | obj members => exact lookup_setMember_of_ne hne value members
  | _ => rfl

end Json

end ControlPlane
