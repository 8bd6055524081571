/-
# JSON values

The values that a JSON text decodes to: a number with a fraction or an exponent
is a rational, an infinity or no number; an object keeps its fields in order.

Key definitions: `Json`, `Json.array`, `Json.object`, `Json.field`.
Key theorems: `Json.array_injective`, `Json.optional_inj`.
-/
import Mathlib.Data.List.Basic
import Mathlib.Data.Rat.Defs

/-- A floating-point number as its value. -/
inductive FloatValue
  | finite (q : ℚ)
  | infinity (negative : Bool)
  | nan
  deriving DecidableEq, Repr

mutual

inductive Json
  | null
  | bool (b : Bool)
  | int (n : ℤ)
  | float (x : FloatValue)
  | str (s : String)
  | arr (items : JsonItems)
  | obj (fields : JsonFields)
  deriving DecidableEq, Repr

inductive JsonItems
  | nil
  | cons (item : Json) (rest : JsonItems)
  deriving DecidableEq, Repr

inductive JsonFields
  | nil
  | cons (name : String) (value : Json) (rest : JsonFields)
  deriving DecidableEq, Repr

end

/-- The first field of this name. -/
def JsonFields.lookup (name : String) : JsonFields → Option Json
  | .nil => none
  | .cons field value rest => if field = name then some value else rest.lookup name

def JsonFields.names : JsonFields → List String
  | .nil => []
  | .cons name _ rest => name :: rest.names

def JsonItems.toList : JsonItems → List Json
  | .nil => []
  | .cons item rest => item :: rest.toList

namespace Json

def array (items : List Json) : Json := .arr (items.foldr .cons .nil)

def object (fields : List (String × Json)) : Json :=
  .obj (fields.foldr (fun field rest => .cons field.1 field.2 rest) .nil)

/-- `value[name]`, or nothing. -/
def field (name : String) : Json → Option Json
  | .obj fields => fields.lookup name
  | .null | .bool _ | .int _ | .float _ | .str _ | .arr _ => none

def strs (items : List String) : Json := array (items.map .str)

def optional {α : Type} (value : α → Json) : Option α → Json
  | some a => value a
  | none => .null

@[simp] theorem field_object_cons (name : String) (f : String × Json)
    (fields : List (String × Json)) : (object (f :: fields)).field name =
      if f.1 = name then some f.2 else (object fields).field name := rfl

@[simp] theorem field_object_nil (name : String) : (object []).field name = none := rfl

@[simp] theorem toList_array (items : List Json) :
    (items.foldr JsonItems.cons .nil).toList = items := by
  induction items with
  | nil => rfl
  | cons item rest ih => exact congrArg (item :: ·) ih

theorem array_injective : Function.Injective array := by
  intro items items' h
  have hfold : items.foldr JsonItems.cons .nil = items'.foldr JsonItems.cons .nil :=
    Json.arr.inj h
  clear h
  induction items generalizing items' with
  | nil =>
    cases items' with
    | nil => rfl
    | cons => cases hfold
  | cons item rest ih =>
    cases items' with
    | nil => cases hfold
    | cons item' rest' =>
      obtain ⟨hitem, hrest⟩ := JsonItems.cons.inj hfold
      rw [hitem, ih hrest]

theorem strs_injective : Function.Injective strs :=
  array_injective.comp (List.map_injective_iff.mpr fun _ _ h => Json.str.inj h)

/-- What may be left out, if nothing is written as nothing is. -/
theorem optional_inj {α : Type} {value : α → Json} {o o' : Option α}
    (hnull : ∀ a, value a ≠ .null) (h : ∀ a ∈ o, ∀ a' ∈ o', value a = value a' → a = a') :
    optional value o = optional value o' ↔ o = o' := by
  refine ⟨fun heq => ?_, congrArg _⟩
  cases o with
  | none =>
    cases o' with
    | none => rfl
    | some a' => exact absurd heq.symm (hnull a')
  | some a =>
    cases o' with
    | none => exact absurd heq (hnull a)
    | some a' => exact congrArg some (h a rfl a' rfl heq)

theorem optional_str_inj {o o' : Option String} :
    optional .str o = optional .str o' ↔ o = o' :=
  optional_inj nofun fun _ _ _ _ h => Json.str.inj h

theorem optional_int_inj {o o' : Option ℤ} :
    optional .int o = optional .int o' ↔ o = o' :=
  optional_inj nofun fun _ _ _ _ h => Json.int.inj h

end Json
