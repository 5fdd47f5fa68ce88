import Mathlib.Data.Rat.Defs

/-!
# JSON values

The values of a JSON document, and the strings found under a key at any depth. A
string under the key counts itself; any other value is searched.
-/

inductive Json
  | null
  | bool (value : Bool)
  | int (value : ℤ)
  | float (value : ℚ)
  | str (value : String)
  | arr (items : List Json)
  | obj (fields : List (String × Json))

namespace Json

/-- The value of an object's field. -/
def get (value : Json) (key : String) : Option Json :=
  match value with
  | obj fields => (fields.find? fun field => field.1 = key).map Prod.snd
  | _ => none

mutual

/-- The strings under a key. -/
def stringsUnder (key : String) : Json → List String
  | arr items => stringsUnderItems key items
  | obj fields => stringsUnderFields key fields
  | _ => []

def stringsUnderItems (key : String) : List Json → List String
  | [] => []
  | item :: items => stringsUnder key item ++ stringsUnderItems key items

def stringsUnderFields (key : String) : List (String × Json) → List String
  | [] => []
  | (name, value) :: fields =>
    (match value with
      | str text => if name = key then [text] else []
      | _ => stringsUnder key value) ++ stringsUnderFields key fields

end

@[simp] theorem stringsUnder_str (key text : String) : stringsUnder key (str text) = [] := rfl

@[simp] theorem stringsUnder_int (key : String) (n : ℤ) : stringsUnder key (int n) = [] := rfl

@[simp] theorem stringsUnder_float (key : String) (x : ℚ) : stringsUnder key (float x) = [] := rfl

@[simp] theorem stringsUnder_null (key : String) : stringsUnder key null = [] := rfl

@[simp] theorem stringsUnder_obj (key : String) (fields : List (String × Json)) :
    stringsUnder key (obj fields) = stringsUnderFields key fields := rfl

@[simp] theorem stringsUnder_arr (key : String) (items : List Json) :
    stringsUnder key (arr items) = stringsUnderItems key items := rfl

@[simp] theorem stringsUnderFields_nil (key : String) : stringsUnderFields key [] = [] := rfl

/-- A string of another field is not under the key; what is not a string is searched. -/
@[simp] theorem stringsUnderFields_str (key name text : String) (fields : List (String × Json)) :
    stringsUnderFields key ((name, str text) :: fields) =
      (if name = key then [text] else []) ++ stringsUnderFields key fields := rfl

theorem stringsUnderFields_cons {key name : String} (h : name ≠ key) (value : Json)
    (fields : List (String × Json)) : stringsUnderFields key ((name, value) :: fields) =
      stringsUnder key value ++ stringsUnderFields key fields := by
  cases value <;> simp [stringsUnderFields, h]

/-- A string that is found under a key at the top is one of those under it. -/
theorem mem_stringsUnder_of_get {value : Json} {key text : String}
    (h : value.get key = some (str text)) : text ∈ stringsUnder key value := by
  cases value with
  | obj fields =>
    rw [stringsUnder_obj]
    induction fields with
    | nil => cases h
    | cons field fields ih =>
      obtain ⟨name, child⟩ := field
      by_cases hname : name = key
      · have hchild : child = str text := by
          simpa [get, hname] using h
        simp [hchild, hname]
      · have hrest : get (obj fields) key = some (str text) := by
          simpa [get, hname] using h
        rw [stringsUnderFields_cons hname]
        exact List.mem_append_right _ (ih hrest)
  | _ => cases h

theorem stringsUnderItems_eq (key : String) (items : List Json) :
    stringsUnderItems key items = items.flatMap (stringsUnder key) := by
  induction items with
  | nil => rfl
  | cons item items ih => rw [stringsUnderItems, ih, List.flatMap_cons]

end Json
