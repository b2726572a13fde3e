import Mathlib.Logic.Function.Basic
import Podmin.Foundation.Transition

/-!
# Tables that lose entries but never change them

A cache may drop any entry at any time. As long as an entry is only written where there is none, one
that stays keeps its value, whatever happens to the others.
-/

namespace Podmin.Foundation.OnceMap

open Foundation.Transition

variable {Key Value : Type*}

/-- Every entry of a table is still there with its value, or gone. -/
def Keeps (before after : Key → Option Value) : Prop :=
  ∀ key value, before key = some value → after key = some value ∨ after key = none

theorem Keeps.refl (table : Key → Option Value) : Keeps table table :=
  fun _ _ hvalue ↦ .inl hvalue

variable {before after : Key → Option Value}

/-- An entry that is there again has its old value. -/
theorem Keeps.eq_of_isSome (hkeeps : Keeps before after) {key : Key} {value : Value}
    (hbefore : before key = some value) (hafter : (after key).isSome) :
    after key = some value := by
  rcases hkeeps key value hbefore with hsame | hgone
  · exact hsame
  · rw [hgone] at hafter
    exact absurd hafter Bool.false_ne_true

variable [DecidableEq Key]

theorem Keeps.insert (hkeeps : Keeps before after) {key : Key} (hnone : before key = none) (value : Value) :
    Keeps before (Function.update after key (some value)) := by
  intro other stored hstored
  by_cases hother : other = key
  · rw [hother, hnone] at hstored
    exact nomatch hstored
  · rw [Function.update_of_ne hother]
    exact hkeeps other stored hstored

theorem Keeps.delete (hkeeps : Keeps before after) (key : Key) :
    Keeps before (Function.update after key none) := by
  intro other stored hstored
  by_cases hother : other = key
  · rw [hother, Function.update_self]
    exact .inr rfl
  · rw [Function.update_of_ne hother]
    exact hkeeps other stored hstored

omit [DecidableEq Key] in
/-- Along a run in which an entry is always there, it has the value it started with. -/
theorem entry_of_resumed {State Event : Type*} {system : System State Event}
    {table : State → Key → Option Value} {start later : State} {key : Key} {value : Value}
    (hkeeps : ∀ state event next, system.step state event next → Keeps (table state) (table next))
    (hstart : table start key = some value)
    (hlater : Reachable (system.resumed start fun state ↦ (table state key).isSome) later) :
    table later key = some value := by
  refine @Reachable.invariant _ _ _ (fun state ↦ table state key = some value) ?_ ?_ _ hlater
  · intro state hinit
    rw [hinit]
    exact hstart
  · intro state event next _ hentry hstep
    exact (hkeeps state event next hstep.1).eq_of_isSome hentry hstep.2

end Podmin.Foundation.OnceMap
