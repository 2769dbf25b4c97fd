import Mathlib.Data.Rat.Init

namespace EdoproServer.Lib

/-- A JSON value. Numbers are the finite ones; of a repeated member name the last one counts. -/
inductive Json where
  | null
  | bool (value : Bool)
  | number (value : Rat)
  | string (value : String)
  | array (elements : List Json)
  | object (members : List (String × Json))

namespace Json

/-- The member of an object's list that a name stands for. -/
def memberOf (members : List (String × Json)) (name : String) : Option Json :=
  (members.reverse.find? (fun member => member.1 = name)).map Prod.snd

/-- `value.name`, where a value without the member gives `undefined`. -/
def field (value : Json) (name : String) : Option Json :=
  match value with
  | object members => memberOf members name
  | _ => none

def isObject : Json → Bool
  | object _ => true
  | _ => false

theorem isObject_iff {value : Json} :
    value.isObject = true ↔ ∃ members, value = object members := by
  cases value <;> simp [isObject]

mutual

/-- A value decoded into Lua tables and encoded again: a table says nothing of what an empty one
was, and every number is printed anew. -/
def throughLua (printed : Rat → Rat) : Json → Json
  | null => null
  | bool value => bool value
  | number value => number (printed value)
  | string value => string value
  | array [] => object []
  | array (element :: elements) =>
    array (element.throughLua printed :: elementsThroughLua printed elements)
  | object members => object (membersThroughLua printed members)

def elementsThroughLua (printed : Rat → Rat) : List Json → List Json
  | [] => []
  | element :: elements => element.throughLua printed :: elementsThroughLua printed elements

def membersThroughLua (printed : Rat → Rat) : List (String × Json) → List (String × Json)
  | [] => []
  | (name, value) :: members =>
    (name, value.throughLua printed) :: membersThroughLua printed members

end

section ThroughLua

variable {printed : Rat → Rat}

theorem elementsThroughLua_eq_map (elements : List Json) :
    elementsThroughLua printed elements = elements.map (throughLua printed) := by
  induction elements with
  | nil => rw [elementsThroughLua, List.map_nil]
  | cons element elements ih => rw [elementsThroughLua, ih, List.map_cons]

theorem membersThroughLua_eq_map (members : List (String × Json)) :
    membersThroughLua printed members =
      members.map (fun member => (member.1, member.2.throughLua printed)) := by
  induction members with
  | nil => rw [membersThroughLua, List.map_nil]
  | cons member members ih => rw [membersThroughLua, ih, List.map_cons]

@[simp] theorem throughLua_object (members : List (String × Json)) :
    (object members).throughLua printed =
      object (members.map (fun member => (member.1, member.2.throughLua printed))) := by
  rw [throughLua, membersThroughLua_eq_map]

theorem throughLua_array {elements : List Json} (h : elements ≠ []) :
    (array elements).throughLua printed = array (elements.map (throughLua printed)) := by
  obtain ⟨element, elements, rfl⟩ := List.exists_cons_of_ne_nil h
  rw [throughLua, elementsThroughLua_eq_map, List.map_cons]

theorem memberOf_map (f : Json → Json) (members : List (String × Json)) (name : String) :
    memberOf (members.map (fun member => (member.1, f member.2))) name =
      (memberOf members name).map f := by
  simp only [memberOf, ← List.map_reverse, List.find?_map, Option.map_map]
  rfl

@[simp] theorem field_throughLua (value : Json) (name : String) :
    (value.throughLua printed).field name = (value.field name).map (throughLua printed) := by
  cases value with
  | array elements => cases elements <;> rfl
  | object members =>
    rw [throughLua_object]
    exact memberOf_map (throughLua printed) members name
  | _ => rfl

/-- A member that is appended is the one its name stands for. -/
theorem memberOf_append_singleton (members : List (String × Json)) (name name' : String)
    (value : Json) :
    memberOf (members ++ [(name, value)]) name' =
      if name' = name then some value else memberOf members name' := by
  by_cases hname : name = name'
  · simp [memberOf, hname]
  · simp [memberOf, hname, Ne.symm hname]

end ThroughLua

end Json

end EdoproServer.Lib
