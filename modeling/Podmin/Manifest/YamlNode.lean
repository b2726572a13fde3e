import Mathlib.Data.Finite.Prod
import Mathlib.Data.Finset.Card
import Mathlib.Data.Fintype.Card
import Mathlib.Logic.Relation
import Mathlib.Order.WellFounded
import Podmin.Foundation.Fallible

/-!
# Validation of YAML nodes

`validateYAMLNode` of `internal/manifest`: a decoded document is a graph of nodes, in which a node points to
its children and an alias to the node it stands for. The traversal follows both kinds of pointers and records
only the alias targets it is in the middle of. The recursion of the source is bounded here by a fuel; the
traversal carries, besides the recorded targets, the number of invocations so far.
-/

namespace Podmin.Manifest

variable {result : Except String Unit} {fuel : Nat}

/-! ## Node graphs -/

/-- The kinds of nodes; `zeroKind` is that of an empty node. -/
inductive NodeKind where
  | zeroKind
  | documentNode
  | sequenceNode
  | mappingNode
  | scalarNode
  | aliasNode
  deriving DecidableEq, Repr

/-- A node; its pointers to children and, for an alias, to its target are identifiers. -/
structure YamlNode (Id : Type) where
  kind : NodeKind
  tag : String := ""
  value : String := ""
  content : List Id := []
  target : Option Id := none
  deriving DecidableEq, Repr

abbrev NodeGraph (Id : Type) := Id → YamlNode Id

/-- Every other item from the first on: the keys among the children of a mapping. -/
def keysOf {Item : Type} : List Item → List Item
  | [] => []
  | [key] => [key]
  | key :: _ :: rest => key :: keysOf rest

/-! ## The traversal -/

/-- The alias targets being visited, and how often the function was entered. -/
structure Traversal (Id : Type) where
  visiting : Finset Id
  calls : Nat

namespace Traversal

variable {Id : Type} [DecidableEq Id]

def start : Traversal Id := ⟨∅, 0⟩

def enter (state : Traversal Id) : Traversal Id :=
  { state with calls := state.calls + 1 }

def mark (state : Traversal Id) (target : Id) : Traversal Id :=
  { state with visiting := insert target state.visiting }

def unmark (state : Traversal Id) (target : Id) : Traversal Id :=
  { state with visiting := state.visiting.erase target }

end Traversal

section Validate

variable {Id : Type} [DecidableEq Id]

/-- Check the keys of a mapping; `seen` are the values of the keys so far. -/
def checkKeys (graph : NodeGraph Id) (seen : List String) : List Id → Except String Unit
  | [] => .ok ()
  | id :: ids =>
    let key := graph id
    if key.kind ≠ .scalarNode ∨ key.tag ≠ "!!str" ∨ key.value = "<<" then
      .error "YAML mapping keys must be unique strings without merges"
    else if key.value ∈ seen then
      .error ("duplicate YAML mapping key \"" ++ key.value ++ "\"")
    else checkKeys graph (key.value :: seen) ids

/-- Only the keys of a mapping are checked. -/
def checkNode (graph : NodeGraph Id) (node : YamlNode Id) : Except String Unit :=
  if node.kind = .mappingNode then checkKeys graph [] (keysOf node.content) else .ok ()

/-- Visit nodes one after the other until one of them fails. -/
def visitAll (visit : Id → Traversal Id → Option (Except String Unit × Traversal Id)) :
    List Id → Traversal Id → Option (Except String Unit × Traversal Id)
  | [], state => some (.ok (), state)
  | id :: ids, state =>
    match visit id state with
    | some (.ok (), next) => visitAll visit ids next
    | stopped => stopped

/-- Validate the aliases and mappings that are reached from a node. -/
def validateYAMLNode (graph : NodeGraph Id) :
    Nat → Id → Traversal Id → Option (Except String Unit × Traversal Id)
  | 0, _, _ => none
  | fuel + 1, id, state =>
    let state := state.enter
    let node := graph id
    if node.kind = .aliasNode then
      match node.target with
      | none => some (.error "invalid recursive YAML alias", state)
      | some target =>
        if target ∈ state.visiting then some (.error "invalid recursive YAML alias", state)
        else
          (validateYAMLNode graph fuel target (state.mark target)).map fun (result, after) ↦
            (result, after.unmark target)
    else
      match checkNode graph node with
      | .error message => some (.error message, state)
      | .ok () => visitAll (validateYAMLNode graph fuel) node.content state

end Validate

/-! ## What is reached -/

section Reached

variable {Id : Type} (graph : NodeGraph Id)

/-- From a node that is not an alias to one of its children. -/
def Child (parent child : Id) : Prop :=
  (graph parent).kind ≠ .aliasNode ∧ child ∈ (graph parent).content

/-- From an alias to its target. -/
def Follows (id target : Id) : Prop :=
  (graph id).kind = .aliasNode ∧ (graph id).target = some target

/-- One pointer that the traversal follows. -/
def Points (id next : Id) : Prop :=
  Child graph id next ∨ Follows graph id next

abbrev Reaches : Id → Id → Prop := Relation.ReflTransGen (Points graph)

/-- The keys of a mapping are different strings and no merge keys. -/
structure WellKeyed (node : YamlNode Id) : Prop where
  strings : ∀ key ∈ keysOf node.content, (graph key).kind = .scalarNode ∧ (graph key).tag = "!!str" ∧
    (graph key).value ≠ "<<"
  distinct : ((keysOf node.content).map fun key ↦ (graph key).value).Nodup

/-- What is accepted: no reachable alias lacks a target or lies on a cycle, and every reachable mapping is
well keyed. -/
structure WellFormed (root : Id) : Prop where
  targets : ∀ id, Reaches graph root id → (graph id).kind = .aliasNode →
    ∃ target, (graph id).target = some target
  acyclic : ∀ id, Reaches graph root id → (graph id).kind = .aliasNode → ¬Relation.TransGen (Points graph) id id
  keyed : ∀ id, Reaches graph root id → (graph id).kind = .mappingNode → WellKeyed graph (graph id)

/-- No cycle of children alone is reachable. -/
def Nested (root : Id) : Prop :=
  ∀ id, Reaches graph root id → ¬Relation.TransGen (Child graph) id id

end Reached

section WellFormed

variable {Id : Type} {graph : NodeGraph Id}

theorem WellFormed.points {root next : Id} (hroot : WellFormed graph root) (hpoints : Points graph root next) :
    WellFormed graph next where
  targets id hreach := hroot.targets id (.head hpoints hreach)
  acyclic id hreach := hroot.acyclic id (.head hpoints hreach)
  keyed id hreach := hroot.keyed id (.head hpoints hreach)

theorem wellFormed_of_points {root : Id}
    (htarget : (graph root).kind = .aliasNode → ∃ target, (graph root).target = some target)
    (hacyclic : (graph root).kind = .aliasNode → ¬Relation.TransGen (Points graph) root root)
    (hkeyed : (graph root).kind = .mappingNode → WellKeyed graph (graph root))
    (hnext : ∀ next, Points graph root next → WellFormed graph next) : WellFormed graph root where
  targets id hreach := by
    rcases hreach.cases_head with rfl | ⟨next, hpoints, hrest⟩
    · exact htarget
    · exact (hnext next hpoints).targets id hrest
  acyclic id hreach := by
    rcases hreach.cases_head with rfl | ⟨next, hpoints, hrest⟩
    · exact hacyclic
    · exact (hnext next hpoints).acyclic id hrest
  keyed id hreach := by
    rcases hreach.cases_head with rfl | ⟨next, hpoints, hrest⟩
    · exact hkeyed
    · exact (hnext next hpoints).keyed id hrest

/-- An alias of a marked node is reached. -/
def ReachesMarked (graph : NodeGraph Id) (visiting : Finset Id) (id : Id) : Prop :=
  ∃ pointer target, Reaches graph id pointer ∧ Follows graph pointer target ∧ target ∈ visiting

theorem ReachesMarked.head {visiting : Finset Id} {id next : Id} (hpoints : Points graph id next)
    (hmarked : ReachesMarked graph visiting next) : ReachesMarked graph visiting id := by
  obtain ⟨pointer, target, hreach, hfollows⟩ := hmarked
  exact ⟨pointer, target, .head hpoints hreach, hfollows⟩

end WellFormed

/-! ## Keys -/

section Steps

variable {Id : Type} {graph : NodeGraph Id}

variable {ids : List Id}

theorem checkKeys_eq_ok {seen : List String} :
    checkKeys graph seen ids = .ok () ↔
      (∀ id ∈ ids, (graph id).kind = .scalarNode ∧ (graph id).tag = "!!str" ∧ (graph id).value ≠ "<<") ∧
        (ids.map fun id ↦ (graph id).value).Nodup ∧ ∀ id ∈ ids, (graph id).value ∉ seen := by
  refine Foundation.Fallible.distinct_eq_ok (fun _ ↦ rfl) fun seen id ids ↦ ?_
  rw [checkKeys]
  split_ifs with hkey hseen
  · simp only [false_iff]
    tauto
  · simp [hseen]
  · simp only [ne_eq, not_or, not_not] at hkey
    simp [hkey, hseen]

theorem checkNode_eq_ok {node : YamlNode Id} :
    checkNode graph node = .ok () ↔ (node.kind = .mappingNode → WellKeyed graph node) := by
  unfold checkNode
  split_ifs with hkind
  · rw [checkKeys_eq_ok]
    simp only [hkind, forall_const]
    exact ⟨fun h ↦ ⟨h.1, h.2.1⟩, fun h ↦ ⟨h.strings, h.distinct, by simp⟩⟩
  · simp [hkind]

/-! ## One invocation -/

variable {state after : Traversal Id} {visit : Id → Traversal Id → Option (Except String Unit × Traversal Id)}

/-- A loop goes on after a visit that ends well, and otherwise ends as the visit. -/
theorem visitAll_cons {id : Id} (hall : visitAll visit (id :: ids) state = some (result, after)) :
    (∃ next, visit id state = some (.ok (), next) ∧ visitAll visit ids next = some (result, after)) ∨
      (result ≠ .ok () ∧ visit id state = some (result, after)) := by
  unfold visitAll at hall
  split at hall
  · next next hfirst => exact .inl ⟨next, hfirst, hall⟩
  · next hstopped =>
    refine .inr ⟨?_, hall⟩
    rintro rfl
    exact hstopped after hall

/-- What a loop over nodes keeps when every visit keeps it. -/
theorem visitAll_keeps (Kept : Traversal Id → Traversal Id → Prop) (hrefl : ∀ state, Kept state state)
    (htrans : ∀ first second third, Kept first second → Kept second third → Kept first third)
    (hvisit : ∀ id state result after, visit id state = some (result, after) → Kept state after)
    (hall : visitAll visit ids state = some (result, after)) :
    Kept state after := by
  induction ids generalizing state with
  | nil =>
    cases hall
    exact hrefl _
  | cons id ids ih =>
    rcases visitAll_cons hall with ⟨next, hfirst, hrest⟩ | ⟨_, hfirst⟩
    · exact htrans _ _ _ (hvisit id state _ next hfirst) (ih hrest)
    · exact hvisit id state _ _ hfirst

variable {ended : Except String Unit × Traversal Id}

theorem visitAll_mono {first second : Id → Traversal Id → Option (Except String Unit × Traversal Id)}
    (hmono : ∀ id state ended, first id state = some ended → second id state = some ended)
    (hall : visitAll first ids state = some ended) : visitAll second ids state = some ended := by
  induction ids generalizing state with
  | nil => exact hall
  | cons id ids ih =>
    unfold visitAll at hall ⊢
    cases hfirst : first id state with
    | none => simp [hfirst] at hall
    | some stopped =>
      rw [hfirst] at hall
      rw [hmono id state stopped hfirst]
      obtain ⟨outcome, next⟩ := stopped
      cases outcome with
      | error message => exact hall
      | ok _ => exact ih hall

/-- A loop ends well when every visit does, and otherwise as the visit that stops it. -/
theorem visitAll_result
    (hkeeps : ∀ id state result after, visit id state = some (result, after) → after.visiting = state.visiting)
    (hall : visitAll visit ids state = some (result, after)) :
    (result = .ok () → ∀ id ∈ ids, ∃ before next, before.visiting = state.visiting ∧
        visit id before = some (.ok (), next)) ∧
      (result ≠ .ok () → ∃ id ∈ ids, ∃ before next, before.visiting = state.visiting ∧
        visit id before = some (result, next)) := by
  induction ids generalizing state with
  | nil =>
    cases hall
    simp
  | cons id ids ih =>
    rcases visitAll_cons hall with ⟨next, hfirst, hrest⟩ | ⟨hstopped, hfirst⟩
    · obtain ⟨hok, hstop⟩ := ih hrest
      rw [hkeeps id state _ next hfirst] at hok hstop
      refine ⟨fun hresult ↦ List.forall_mem_cons.mpr ⟨⟨state, next, rfl, hfirst⟩, hok hresult⟩,
        fun hresult ↦ ?_⟩
      obtain ⟨other, hother, hfound⟩ := hstop hresult
      exact ⟨other, List.mem_cons_of_mem _ hother, hfound⟩
    · exact ⟨fun hresult ↦ absurd hresult hstopped,
        fun _ ↦ ⟨id, List.mem_cons_self, state, after, rfl, hfirst⟩⟩

variable [DecidableEq Id]

/-- How one invocation ends. -/
inductive Visited (graph : NodeGraph Id) (fuel : Nat) (id : Id) (state : Traversal Id) :
    Except String Unit → Traversal Id → Prop
  | dead (halias : (graph id).kind = .aliasNode)
    (hdead : ∀ target ∉ state.visiting, (graph id).target ≠ some target) :
      Visited graph fuel id state (.error "invalid recursive YAML alias") state.enter
  | followed {target : Id} {result : Except String Unit} {after : Traversal Id}
    (hfollows : Follows graph id target)
    (hfree : target ∉ state.visiting)
      (hvisit : validateYAMLNode graph fuel target (state.enter.mark target) = some (result, after)) :
      Visited graph fuel id state result (after.unmark target)
  | unkeyed {message : String} (hkind : (graph id).kind ≠ .aliasNode)
      (hcheck : checkNode graph (graph id) = .error message) :
      Visited graph fuel id state (.error message) state.enter
  | children {result : Except String Unit} {after : Traversal Id} (hkind : (graph id).kind ≠ .aliasNode)
      (hcheck : checkNode graph (graph id) = .ok ())
      (hvisit : visitAll (validateYAMLNode graph fuel) (graph id).content state.enter = some (result, after)) :
      Visited graph fuel id state result after

theorem visited_of_validate {id : Id}
    (hvisit : validateYAMLNode graph (fuel + 1) id state = some (result, after)) :
    Visited graph fuel id state result after := by
  unfold validateYAMLNode at hvisit
  dsimp only at hvisit
  split_ifs at hvisit with hkind
  · cases htarget : (graph id).target with
    | none =>
      simp only [htarget, Option.some.injEq, Prod.mk.injEq] at hvisit
      obtain ⟨rfl, rfl⟩ := hvisit
      exact .dead hkind (by simp [htarget])
    | some target =>
      simp only [htarget] at hvisit
      split_ifs at hvisit with hmarked
      · simp only [Option.some.injEq, Prod.mk.injEq] at hvisit
        obtain ⟨rfl, rfl⟩ := hvisit
        refine .dead hkind fun other hother heq ↦ hother ?_
        exact Option.some.inj (htarget.symm.trans heq) ▸ hmarked
      · obtain ⟨⟨inner, ended⟩, hinner, hpair⟩ := Option.map_eq_some_iff.mp hvisit
        simp only [Prod.mk.injEq] at hpair
        obtain ⟨rfl, rfl⟩ := hpair
        exact .followed ⟨hkind, htarget⟩ hmarked hinner
  · cases hcheck : checkNode graph (graph id) with
    | error message =>
      simp only [hcheck, Option.some.injEq, Prod.mk.injEq] at hvisit
      obtain ⟨rfl, rfl⟩ := hvisit
      exact .unkeyed hkind hcheck
    | ok _ =>
      rw [hcheck] at hvisit
      exact .children hkind hcheck hvisit

/-- A visit leaves no mark behind. -/
theorem validateYAMLNode_visiting {id : Id}
    (hvisit : validateYAMLNode graph fuel id state = some (result, after)) :
    after.visiting = state.visiting := by
  induction fuel generalizing id state after result with
  | zero => cases hvisit
  | succ fuel ih =>
    cases visited_of_validate hvisit with
    | dead => rfl
    | unkeyed => rfl
    | @followed target _ inner _ hfree hinner =>
      have hkept := ih hinner
      rw [Traversal.unmark, hkept]
      exact Finset.erase_insert hfree
    | children _ _ hall =>
      have hkept : after.visiting = state.enter.visiting :=
        visitAll_keeps (fun first second ↦ second.visiting = first.visiting) (fun _ ↦ rfl)
          (fun _ _ _ hfirst hsecond ↦ hsecond.trans hfirst) (fun _ _ _ _ hvisit ↦ ih hvisit) hall
      exact hkept

/-! ## Exactness -/

/-- A visit that ends well has seen a well-formed part of the graph, without an alias of a marked node. -/
theorem wellFormed_of_validate {id : Id}
    (hvisit : validateYAMLNode graph fuel id state = some (.ok (), after)) :
    WellFormed graph id ∧ ¬ReachesMarked graph state.visiting id := by
  induction fuel generalizing id state after with
  | zero => cases hvisit
  | succ fuel ih =>
    cases visited_of_validate hvisit with
    | @followed target _ inner hfollows hfree hinner =>
      obtain ⟨hwell, hunmarked⟩ := ih hinner
      have hnext : ∀ next, Points graph id next → next = target := by
        rintro next (hchild | hother)
        · exact absurd hfollows.1 hchild.1
        · exact Option.some.inj (hother.2.symm.trans hfollows.2)
      -- a cycle through the alias, or an alias of a marked node, would have been met below the target
      constructor
      · refine wellFormed_of_points (fun _ ↦ ⟨target, hfollows.2⟩) (fun _ hcycle ↦ ?_)
          (fun hkind ↦ absurd (hfollows.1.symm.trans hkind) (by decide))
          fun next hpoints ↦ hnext next hpoints ▸ hwell
        obtain ⟨next, hpoints, hreach⟩ := Relation.TransGen.head'_iff.mp hcycle
        rw [hnext next hpoints] at hreach
        exact hunmarked ⟨id, target, hreach, hfollows, Finset.mem_insert_self _ _⟩
      · rintro ⟨pointer, other, hreach, hpointer, hmarked⟩
        rcases hreach.cases_head with rfl | ⟨next, hpoints, hrest⟩
        · exact hfree (hnext other (.inr hpointer) ▸ hmarked)
        · rw [hnext next hpoints] at hrest
          exact hunmarked ⟨pointer, other, hrest, hpointer, Finset.mem_insert_of_mem hmarked⟩
    | children hkind hcheck hall =>
      have hchildren := (visitAll_result (fun _ _ _ _ ↦ validateYAMLNode_visiting) hall).1 rfl
      have hbelow : ∀ next, Points graph id next →
          WellFormed graph next ∧ ¬ReachesMarked graph state.visiting next := by
        rintro next (hchild | hfollows)
        · obtain ⟨before, ended, hvisiting, hbefore⟩ := hchildren next hchild.2
          have hsame : before.visiting = state.visiting := hvisiting
          exact hsame ▸ ih hbefore
        · exact absurd hfollows.1 hkind
      constructor
      · exact wellFormed_of_points (fun halias ↦ absurd halias hkind) (fun halias ↦ absurd halias hkind)
          (checkNode_eq_ok.mp hcheck) fun next hpoints ↦ (hbelow next hpoints).1
      · rintro ⟨pointer, other, hreach, hpointer, hmarked⟩
        rcases hreach.cases_head with rfl | ⟨next, hpoints, hrest⟩
        · exact hkind hpointer.1
        · exact (hbelow next hpoints).2 ⟨pointer, other, hrest, hpointer, hmarked⟩

/-- A visit that fails has met a fault or an alias of a marked node. -/
theorem fault_of_validate {id : Id} (hvisit : validateYAMLNode graph fuel id state = some (result, after))
    (hresult : result ≠ .ok ()) :
    ¬WellFormed graph id ∨ ReachesMarked graph state.visiting id := by
  induction fuel generalizing id state after with
  | zero => cases hvisit
  | succ fuel ih =>
    cases visited_of_validate hvisit with
    | dead halias hdead =>
      cases htarget : (graph id).target with
      | none =>
        refine .inl fun hwell ↦ ?_
        obtain ⟨target, hsome⟩ := hwell.targets id .refl halias
        exact absurd (htarget.symm.trans hsome) (by simp)
      | some target =>
        by_cases hmarked : target ∈ state.visiting
        · exact .inr ⟨id, target, .refl, ⟨halias, htarget⟩, hmarked⟩
        · exact absurd htarget (hdead target hmarked)
    | @followed target _ inner hfollows hfree hinner =>
      rcases ih hinner with hfault | ⟨pointer, other, hreach, hpointer, hmarked⟩
      · exact .inl fun hwell ↦ hfault (hwell.points (.inr hfollows))
      · rcases Finset.mem_insert.mp hmarked with rfl | hmarked
        · -- the alias points back to where the visit came from
          refine .inl fun hwell ↦ hwell.acyclic pointer (.head (.inr hfollows) hreach) hpointer.1 ?_
          exact Relation.TransGen.head' (.inr hpointer) hreach
        · exact .inr ⟨pointer, other, .head (.inr hfollows) hreach, hpointer, hmarked⟩
    | unkeyed hkind hcheck =>
      refine .inl fun hwell ↦ ?_
      have hok := checkNode_eq_ok.mpr (hwell.keyed id .refl)
      exact absurd (hcheck.symm.trans hok) (by simp)
    | children hkind hcheck hall =>
      obtain ⟨child, hchild, before, ended, hvisiting, hbefore⟩ :=
        (visitAll_result (fun _ _ _ _ ↦ validateYAMLNode_visiting) hall).2 hresult
      have hsame : before.visiting = state.visiting := hvisiting
      have hpoints : Points graph id child := .inl ⟨hkind, hchild⟩
      rcases ih hbefore with hfault | hmarked
      · exact .inl fun hwell ↦ hfault (hwell.points hpoints)
      · exact .inr (hsame ▸ hmarked.head hpoints)

/-- From the root on, a visit that ends has decided whether the document is well formed. -/
theorem validateYAMLNode_exact {root : Id}
    (hvisit : validateYAMLNode graph fuel root .start = some (result, after)) :
    result = .ok () ↔ WellFormed graph root := by
  constructor
  · rintro rfl
    exact (wellFormed_of_validate hvisit).1
  · intro hwell
    by_contra hresult
    rcases fault_of_validate hvisit hresult with hfault | ⟨_, target, _, _, hmarked⟩
    · exact hfault hwell
    · exact absurd hmarked (Finset.notMem_empty target)

/-! ## Termination -/

/-- More fuel changes nothing. -/
theorem validateYAMLNode_mono {more : Nat} (hmore : fuel ≤ more) {id : Id}
    (hvisit : validateYAMLNode graph fuel id state = some ended) :
    validateYAMLNode graph more id state = some ended := by
  induction fuel generalizing more id state ended with
  | zero => cases hvisit
  | succ fuel ih =>
    obtain ⟨more, rfl⟩ := Nat.exists_eq_add_of_le hmore
    have hbelow : fuel ≤ fuel + more := Nat.le_add_right fuel more
    rw [Nat.succ_add]
    unfold validateYAMLNode at hvisit ⊢
    dsimp only at hvisit ⊢
    split_ifs at hvisit ⊢ with hkind
    · cases htarget : (graph id).target with
      | none =>
        rw [htarget] at hvisit
        exact hvisit
      | some target =>
        simp only [htarget] at hvisit ⊢
        split_ifs at hvisit ⊢ with hmarked
        · exact hvisit
        · obtain ⟨inner, hinner, hended⟩ := Option.map_eq_some_iff.mp hvisit
          exact Option.map_eq_some_iff.mpr ⟨inner, ih hbelow hinner, hended⟩
    · cases hcheck : checkNode graph (graph id) with
      | error message =>
        rw [hcheck] at hvisit
        exact hvisit
      | ok _ =>
        rw [hcheck] at hvisit
        exact visitAll_mono (fun _ _ _ hfirst ↦ ih hbelow hfirst) hvisit

/-- With enough fuel the visit ends. -/
def Ends (graph : NodeGraph Id) (id : Id) (state : Traversal Id) : Prop :=
  ∃ fuel ended, validateYAMLNode graph fuel id state = some ended

theorem visitAll_ends {visiting : Finset Id}
    (hends : ∀ id ∈ ids, ∀ state : Traversal Id, state.visiting = visiting → Ends graph id state)
    (hstate : state.visiting = visiting) :
    ∃ fuel ended, visitAll (validateYAMLNode graph fuel) ids state = some ended := by
  induction ids generalizing state with
  | nil => exact ⟨0, _, rfl⟩
  | cons id ids ih =>
    obtain ⟨hfirst, hrest⟩ := List.forall_mem_cons.mp hends
    obtain ⟨fuel, ⟨outcome, next⟩, hvisit⟩ := hfirst state hstate
    cases outcome with
    | error message => exact ⟨fuel, (.error message, next), by simp [visitAll, hvisit]⟩
    | ok _ =>
      obtain ⟨more, ended, hall⟩ := ih hrest ((validateYAMLNode_visiting hvisit).trans hstate)
      refine ⟨max fuel more, ended, ?_⟩
      rw [visitAll, validateYAMLNode_mono (le_max_left fuel more) hvisit]
      exact visitAll_mono (fun _ _ _ hvisit ↦ validateYAMLNode_mono (le_max_right fuel more) hvisit) hall

/-- An invocation ends when those it makes do. -/
theorem ends_of_points {id : Id}
    (hfollowed : ∀ target, Follows graph id target → target ∉ state.visiting →
      Ends graph target (state.enter.mark target))
    (hchildren : ∀ child, Child graph id child →
      ∀ before : Traversal Id, before.visiting = state.visiting → Ends graph child before) :
    Ends graph id state := by
  by_cases hkind : (graph id).kind = .aliasNode
  · cases htarget : (graph id).target with
    | none => exact ⟨1, _, by simp [validateYAMLNode, hkind, htarget]; rfl⟩
    | some target =>
      by_cases hmarked : target ∈ state.visiting
      · exact ⟨1, _, by simp [validateYAMLNode, hkind, htarget, Traversal.enter, hmarked]; rfl⟩
      · obtain ⟨fuel, ended, hvisit⟩ := hfollowed target ⟨hkind, htarget⟩ hmarked
        have hfree : target ∉ state.enter.visiting := hmarked
        exact ⟨fuel + 1, _, by simp only [validateYAMLNode, hkind, htarget, if_true, if_neg hfree, hvisit]; rfl⟩
  · cases hcheck : checkNode graph (graph id) with
    | error message => exact ⟨1, _, by simp [validateYAMLNode, hkind, hcheck]; rfl⟩
    | ok _ =>
      have hvisiting : state.enter.visiting = state.visiting := rfl
      obtain ⟨fuel, ended, hall⟩ :=
        visitAll_ends (fun child hchild ↦ hchildren child ⟨hkind, hchild⟩) hvisiting
      exact ⟨fuel + 1, ended, by simp only [validateYAMLNode, if_neg hkind, hcheck, hall]⟩

/-- Below a root without a cycle of children, every visit ends: an alias that is followed leaves fewer nodes
to mark, and children descend. -/
theorem ends_of_nested [Fintype Id] {root : Id} (hnested : Nested graph root) {id : Id}
    (hreach : Reaches graph root id) (state : Traversal Id) : Ends graph id state := by
  let below (child parent : { id // Reaches graph root id }) : Prop :=
    Relation.TransGen (Child graph) parent.1 child.1
  have htrans : IsTrans _ below := ⟨fun _ _ _ hfirst hsecond ↦ hsecond.trans hfirst⟩
  have hirrefl : Std.Irrefl below := ⟨fun reached ↦ hnested reached.1 reached.2⟩
  have hwf : WellFounded below := Finite.wellFounded_of_trans_of_irrefl below
  induction hcount : (Finset.univ \ state.visiting).card using Nat.strong_induction_on
    generalizing id state with
  | _ count ihcount =>
    subst hcount
    suffices hall : ∀ reached : { id // Reaches graph root id }, ∀ before : Traversal Id,
        before.visiting = state.visiting → Ends graph reached.1 before from hall ⟨id, hreach⟩ state rfl
    intro reached
    induction reached using hwf.induction with
    | _ reached ih =>
      intro before hbefore
      apply ends_of_points
      · intro target hfollows hfree
        rw [hbefore] at hfree
        refine ihcount _ ?_ (reached.2.tail (.inr hfollows)) _ rfl
        have hmarked : (before.enter.mark target).visiting = insert target state.visiting := by
          rw [← hbefore]
          rfl
        rw [hmarked, Finset.sdiff_insert]
        exact Finset.card_erase_lt_of_mem (Finset.mem_sdiff.mpr ⟨Finset.mem_univ target, hfree⟩)
      · intro child hchild next hnext
        exact ih ⟨child, reached.2.tail (.inl hchild)⟩ (.single hchild) next (hnext.trans hbefore)

/-- Whatever the aliases point to, validation ends unless children alone form a cycle, and wherever it ends
it accepts exactly the well-formed documents. -/
theorem validateYAMLNode_decides [Fintype Id] (graph : NodeGraph Id) (root : Id) :
    (Nested graph root → ∃ enough result after, ∀ fuel ≥ enough,
        validateYAMLNode graph fuel root .start = some (result, after)) ∧
      ∀ fuel result after, validateYAMLNode graph fuel root .start = some (result, after) →
        (result = .ok () ↔ WellFormed graph root) := by
  constructor
  · intro hnested
    obtain ⟨enough, ⟨result, after⟩, hvisit⟩ := ends_of_nested hnested .refl .start
    exact ⟨enough, result, after, fun fuel hfuel ↦ validateYAMLNode_mono hfuel hvisit⟩
  · exact fun _ _ _ hvisit ↦ validateYAMLNode_exact hvisit

end Steps

/-- A sequence that is its own child. -/
def selfChild : NodeGraph (Fin 1) := fun _ ↦ { kind := .sequenceNode, content := [0] }

/-- It is visited for ever, since only alias targets are recorded. -/
theorem selfChild_never_ends : ¬∃ fuel result, validateYAMLNode selfChild fuel 0 .start = some result := by
  suffices hall : ∀ fuel state, validateYAMLNode selfChild fuel 0 state = none by
    rintro ⟨fuel, result, hresult⟩
    rw [hall] at hresult
    cases hresult
  intro fuel
  induction fuel with
  | zero => exact fun _ ↦ rfl
  | succ fuel ih =>
    intro state
    have hloop : validateYAMLNode selfChild (fuel + 1) 0 state =
        visitAll (validateYAMLNode selfChild fuel) [0] state.enter := rfl
    rw [hloop, visitAll, ih]

end Podmin.Manifest
