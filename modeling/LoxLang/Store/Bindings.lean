/-!
# Bindings

The names that one scope binds, with their values. A name is bound at most once.
-/

namespace LoxLang

/-- The bindings of one scope. -/
abbrev Bindings (α : Type) := List (String × α)

namespace Bindings

variable {α : Type}

/-- Binds a name to a value; a binding of the name that is there already is replaced. -/
def set (name : String) (value : α) : Bindings α → Bindings α
  | [] => [(name, value)]
  | (bound, old) :: rest =>
    if bound = name then (name, value) :: rest else (bound, old) :: set name value rest

/-- The value that a name is bound to. -/
def get? (name : String) : Bindings α → Option α
  | [] => none
  | (bound, value) :: rest => if bound = name then some value else get? name rest

/-- The names that are bound. -/
def names (bindings : Bindings α) : List String := bindings.map (·.1)

/-- A name is bound to the value that was set last, and other names are as before. -/
theorem get?_set (name other : String) (value : α) (bindings : Bindings α) :
    get? other (bindings.set name value) =
      if other = name then some value else get? other bindings := by
  induction bindings with
  | nil => simp [set, get?, eq_comm]
  | cons binding rest inductionHypothesis =>
    obtain ⟨bound, old⟩ := binding
    by_cases hit : bound = name
    · subst hit
      by_cases same : other = bound <;> simp [set, get?, same, Ne.symm]
    · simp only [set, hit, if_false, get?, inductionHypothesis]
      by_cases same : other = name
      · subst same
        simp [hit]
      · simp [same]

/-- Setting a name adds nothing but that name. -/
theorem mem_names_set {name other : String} {value : α} {bindings : Bindings α} :
    other ∈ names (bindings.set name value) ↔ other = name ∨ other ∈ names bindings := by
  induction bindings with
  | nil => simp [set, names]
  | cons binding rest inductionHypothesis =>
    obtain ⟨bound, old⟩ := binding
    simp only [names, List.map_cons, List.mem_cons] at inductionHypothesis ⊢
    by_cases hit : bound = name
    · subst hit
      simp [set]
    · simp only [set, hit, if_false, List.map_cons, List.mem_cons, inductionHypothesis]
      constructor <;> rintro (rfl | rfl | inside) <;> simp_all

end Bindings
end LoxLang
