import Mathlib.Analysis.SpecificLimits.Normed
import Mathlib.Data.ENat.Basic
import Mathlib.Data.Fintype.Option
import Mathlib.Data.Fintype.Prod
import Podmin.Foundation.Forest
import Podmin.Manifest.YamlNode

/-!
# The work of validating YAML nodes

A mark is removed when the visit of an alias target returns, so a target is visited again through every alias
that leads to it. How often the function is entered is polynomial in the number of nodes as long as the aliases
nest to a bounded depth; without a bound on the depth it is not. An alias of a target that is being visited is
refused, so the depth counts different targets.
-/

namespace Podmin.Manifest

open Foundation Relation

section Work

variable {Id : Type} (graph : NodeGraph Id)

/-- The children as a decoder composes them: every node stands in one place. -/
structure Composed : Prop where
  forest : Forest (Child graph)
  nodup : ∀ id, (graph id).content.Nodup

/-- A walk along pointers, with the targets of the aliases it follows. -/
inductive AliasPath : List Id → Id → Id → Prop
  | here (id : Id) : AliasPath [] id id
  | child {targets : List Id} {id next last : Id} (hchild : Child graph id next)
      (hpath : AliasPath targets next last) : AliasPath targets id last
  | follow {targets : List Id} {id next last : Id} (hfollows : Follows graph id next)
      (hpath : AliasPath targets next last) : AliasPath (next :: targets) id last

/-- No walk from the root follows aliases to more different targets than the limit, unless it comes to one of
them again. -/
def AliasesNest (root : Id) (limit : ℕ∞) : Prop :=
  ∀ targets id, AliasPath graph targets root id → targets.Nodup → (targets.length : ℕ∞) ≤ limit

/-- Validation from the root ends after this many recursive calls. -/
def Makes [DecidableEq Id] (root : Id) (calls : Nat) : Prop :=
  ∃ fuel result after, validateYAMLNode graph fuel root .start = some (result, after) ∧ after.calls = calls + 1

end Work

/-- A polynomial in the number of nodes bounds the recursive calls, for documents whose aliases nest within the
limit. -/
def PolynomialWork (limit : ℕ∞) : Prop :=
  ∃ scale degree, ∀ (Id : Type) [Fintype Id] [DecidableEq Id] (graph : NodeGraph Id) (root : Id) (calls : Nat),
    Composed graph → AliasesNest graph root limit → Makes graph root calls →
      calls ≤ scale * Fintype.card Id ^ degree

/-! ## Bounded nesting -/

variable {fuel : Nat}

section Bounded

variable {Id : Type} {graph : NodeGraph Id}

variable {id : Id} {depth : Nat} {visiting : Finset Id}

/-- In the middle of a traversal the targets that are being visited are not followed again. -/
def NestsBeyond (graph : NodeGraph Id) (visiting : Finset Id) (id : Id) (depth : Nat) : Prop :=
  ∀ targets last, AliasPath graph targets id last → targets.Nodup → (∀ target ∈ targets, target ∉ visiting) →
    targets.length ≤ depth

theorem NestsBeyond.child {next : Id} (hnest : NestsBeyond graph visiting id depth)
    (hchild : Child graph id next) : NestsBeyond graph visiting next depth :=
  fun targets last hpath ↦ hnest targets last (.child hchild hpath)

/-- Behind an alias one level is used up. -/
theorem NestsBeyond.follow [DecidableEq Id] {next : Id} (hnest : NestsBeyond graph visiting id depth)
    (hfollows : Follows graph id next) (hfree : next ∉ visiting) :
    ∃ less, depth = less + 1 ∧ NestsBeyond graph (insert next visiting) next less := by
  have hbelow : ∀ targets last, AliasPath graph targets next last → targets.Nodup →
      (∀ target ∈ targets, target ∉ insert next visiting) → targets.length + 1 ≤ depth := by
    intro targets last hpath hnodup hfresh
    refine hnest (next :: targets) last (.follow hfollows hpath) (List.nodup_cons.mpr ⟨fun hmem ↦ ?_, hnodup⟩)
      (List.forall_mem_cons.mpr ⟨hfree, fun target htarget hmarked ↦ ?_⟩)
    · exact hfresh next hmem (Finset.mem_insert_self _ _)
    · exact hfresh target htarget (Finset.mem_insert_of_mem hmarked)
  obtain ⟨less, rfl⟩ := Nat.exists_eq_add_of_le' (hbelow [] next (.here next) List.nodup_nil (by simp))
  refine ⟨less, by simp, fun targets last hpath hnodup hfresh ↦ ?_⟩
  have := hbelow targets last hpath hnodup hfresh
  simp at this
  omega

variable {visit : Id → Traversal Id → Option (Except String Unit × Traversal Id)} {state after : Traversal Id}
  {result : Except String Unit}

theorem visitAll_calls (cost : Id → Nat) {ids : List Id}
    (hkeeps : ∀ id state result after, visit id state = some (result, after) → after.visiting = state.visiting)
    (hvisit : ∀ id ∈ ids, ∀ before result after, before.visiting = state.visiting →
      visit id before = some (result, after) → after.calls ≤ before.calls + cost id)
    (hall : visitAll visit ids state = some (result, after)) :
    after.calls ≤ state.calls + (ids.map cost).sum := by
  induction ids generalizing state with
  | nil =>
    cases hall
    exact Nat.le_add_right _ _
  | cons id ids ih =>
    obtain ⟨hhead, hrest⟩ := List.forall_mem_cons.mp hvisit
    rw [List.map_cons, List.sum_cons]
    rcases visitAll_cons hall with ⟨next, hfirst, hlater⟩ | ⟨_, hfirst⟩
    · have hnext := hhead state _ next rfl hfirst
      have hlast := ih (hkeeps id state _ next hfirst ▸ hrest) hlater
      omega
    · have hnext := hhead state _ after rfl hfirst
      omega

theorem le_visitAll_calls (cost : Id → Nat) {ids : List Id}
    (hvisit : ∀ id ∈ ids, ∀ state after, visit id state = some (.ok (), after) →
      state.calls + cost id ≤ after.calls)
    (hall : visitAll visit ids state = some (.ok (), after)) :
    state.calls + (ids.map cost).sum ≤ after.calls := by
  induction ids generalizing state with
  | nil =>
    cases hall
    exact le_rfl
  | cons id ids ih =>
    obtain ⟨hhead, hrest⟩ := List.forall_mem_cons.mp hvisit
    rw [List.map_cons, List.sum_cons]
    rcases visitAll_cons hall with ⟨next, hfirst, hlater⟩ | ⟨hstopped, _⟩
    · have hnext := hhead state next hfirst
      have hlast := ih hrest hlater
      omega
    · exact absurd rfl hstopped

variable [DecidableEq Id]

theorem calls_lt_of_validate (hvisit : validateYAMLNode graph fuel id state = some (result, after)) :
    state.calls < after.calls := by
  induction fuel generalizing id state after result with
  | zero => cases hvisit
  | succ fuel ih =>
    cases visited_of_validate hvisit with
    | dead => exact Nat.lt_succ_self _
    | unkeyed => exact Nat.lt_succ_self _
    | followed _ _ hinner => exact (Nat.lt_succ_self _).trans (ih hinner)
    | children _ _ hall =>
      exact visitAll_keeps (fun first second ↦ first.calls ≤ second.calls) (fun _ ↦ le_rfl)
        (fun _ _ _ ↦ le_trans) (fun _ _ _ _ hvisit ↦ (ih hvisit).le) hall

variable [Fintype Id]

/-- The visits that one node can cause, when `depth` aliases can be followed from it. -/
def nestedCost (nodes : Nat) : Nat → Nat
  | 0 => 1
  | depth + 1 => 1 + nodes * nestedCost nodes depth

theorem nestedCost_pos (nodes depth : Nat) : 0 < nestedCost nodes depth := by
  cases depth with
  | zero => exact Nat.one_pos
  | succ depth => exact Nat.add_pos_left Nat.one_pos _

theorem nestedCost_le {nodes : Nat} (hnodes : 0 < nodes) (depth : Nat) :
    nestedCost nodes depth ≤ (depth + 1) * nodes ^ depth := by
  induction depth with
  | zero => simp [nestedCost]
  | succ depth ih =>
    have hpow : 1 ≤ nodes ^ (depth + 1) := Nat.one_le_pow _ _ hnodes
    calc nestedCost nodes (depth + 1)
        = 1 + nodes * nestedCost nodes depth := rfl
      _ ≤ nodes ^ (depth + 1) + nodes * ((depth + 1) * nodes ^ depth) := by gcongr
      _ = (depth + 1 + 1) * nodes ^ (depth + 1) := by ring

/-- Every node below the visited one causes at most the visits of its level. -/
theorem validateYAMLNode_calls (hcomposed : Composed graph) (hnest : NestsBeyond graph state.visiting id depth)
    (hvisit : validateYAMLNode graph fuel id state = some (result, after)) :
    after.calls ≤ state.calls +
      (descendants (Child graph) id).card * nestedCost (Fintype.card Id) depth := by
  induction fuel generalizing depth id state after result with
  | zero => cases hvisit
  | succ fuel ih =>
    have hpos : 0 < (descendants (Child graph) id).card := card_descendants_pos id
    have hcost := nestedCost_pos (Fintype.card Id) depth
    have hone : 1 ≤ (descendants (Child graph) id).card * nestedCost (Fintype.card Id) depth :=
      Nat.mul_pos hpos hcost
    cases visited_of_validate hvisit with
    | dead => exact Nat.add_le_add_left hone _
    | unkeyed => exact Nat.add_le_add_left hone _
    | @followed target _ inner hfollows hfree hinner =>
      obtain ⟨less, rfl, htarget⟩ := hnest.follow hfollows hfree
      have hbelow : (descendants (Child graph) target).card ≤ Fintype.card Id := Finset.card_le_univ _
      calc inner.calls
          ≤ state.calls + 1 +
              (descendants (Child graph) target).card * nestedCost (Fintype.card Id) less := ih htarget hinner
        _ ≤ state.calls + 1 + Fintype.card Id * nestedCost (Fintype.card Id) less := by gcongr
        _ = state.calls + 1 * nestedCost (Fintype.card Id) (less + 1) := by rw [nestedCost]; ring
        _ ≤ _ := by gcongr; exact hpos
    | children hkind _ hall =>
      have hsum := hcomposed.forest.sum_descendants_lt (hcomposed.nodup id) fun child hchild ↦ ⟨hkind, hchild⟩
      have hchildren : ∀ child ∈ (graph id).content, ∀ before result after,
          before.visiting = state.enter.visiting →
            validateYAMLNode graph fuel child before = some (result, after) →
            after.calls ≤ before.calls +
              (descendants (Child graph) child).card * nestedCost (Fintype.card Id) depth := by
        intro child hchild before result after hsame hvisit
        refine ih ?_ hvisit
        rw [hsame]
        exact hnest.child ⟨hkind, hchild⟩
      have hcalls := visitAll_calls
        (fun child ↦ (descendants (Child graph) child).card * nestedCost (Fintype.card Id) depth)
        (fun _ _ _ _ ↦ validateYAMLNode_visiting) hchildren hall
      rw [List.sum_map_mul_right] at hcalls
      calc after.calls
          ≤ state.calls + 1 + ((graph id).content.map fun child ↦
              (descendants (Child graph) child).card).sum * nestedCost (Fintype.card Id) depth := hcalls
        _ ≤ state.calls + nestedCost (Fintype.card Id) depth + ((graph id).content.map fun child ↦
              (descendants (Child graph) child).card).sum * nestedCost (Fintype.card Id) depth := by
            gcongr
            exact hcost
        _ = state.calls + (((graph id).content.map fun child ↦
              (descendants (Child graph) child).card).sum + 1) * nestedCost (Fintype.card Id) depth := by ring
        _ ≤ _ := by gcongr; exact hsum

/-- Documents with bounded alias nesting are validated in polynomial work. -/
theorem calls_le_of_nest (hcomposed : Composed graph) {root : Id} {calls : Nat}
    (hnest : AliasesNest graph root depth) (hmakes : Makes graph root calls) :
    calls ≤ (depth + 1) * Fintype.card Id ^ (depth + 1) := by
  obtain ⟨fuel, result, after, hvisit, hcalls⟩ := hmakes
  have hnodes : 0 < Fintype.card Id := Fintype.card_pos_iff.mpr ⟨root⟩
  have hbelow : (descendants (Child graph) root).card ≤ Fintype.card Id := Finset.card_le_univ _
  have hbeyond : NestsBeyond graph ∅ root depth := fun targets last hpath hnodup _ ↦
    Nat.cast_le.mp (hnest targets last hpath hnodup)
  calc calls
      ≤ after.calls := by omega
    _ ≤ 0 + (descendants (Child graph) root).card * nestedCost (Fintype.card Id) depth :=
        validateYAMLNode_calls hcomposed hbeyond hvisit
    _ ≤ 0 + Fintype.card Id * ((depth + 1) * Fintype.card Id ^ depth) := by
        gcongr
        exact nestedCost_le hnodes depth
    _ = (depth + 1) * Fintype.card Id ^ (depth + 1) := by ring

end Bounded

/-! ## Unbounded nesting -/

/-- The nodes of a document with `levels + 1` lists: its root, and each list with its two items. -/
abbrev LaughId (levels : Nat) := Option (Fin (levels + 1) × Fin 3)

/-- A sequence of lists: the first holds two strings, and every other one two aliases of the list before. -/
def laughs (levels : Nat) : NodeGraph (LaughId levels)
  | none => { kind := .sequenceNode, content := (List.finRange (levels + 1)).map fun level ↦ some (level, 0) }
  | some (level, 0) => { kind := .sequenceNode, content := [some (level, 1), some (level, 2)] }
  | some (level, _) =>
    if hfirst : level = 0 then { kind := .scalarNode, tag := "!!str", value := "lol" }
    else { kind := .aliasNode, target := some (some ((level.pred hfirst).castSucc, 0)) }

section Laughs

variable {levels : Nat}

/-- Pointers lead to nodes of smaller rank. -/
def laughRank : LaughId levels → Nat
  | none => 2 * levels + 2
  | some (level, item) => if item = 0 then 2 * level.val + 1 else 2 * level.val

/-- The four kinds of nodes of the document. -/
inductive LaughNode : LaughId levels → YamlNode (LaughId levels) → Prop
  | root : LaughNode none
      { kind := .sequenceNode, content := (List.finRange (levels + 1)).map fun level ↦ some (level, 0) }
  | list (level : Fin (levels + 1)) : LaughNode (some (level, 0))
      { kind := .sequenceNode, content := [some (level, 1), some (level, 2)] }
  | text (item : Fin 3) (hitem : item ≠ 0) : LaughNode (some (0, item))
      { kind := .scalarNode, tag := "!!str", value := "lol" }
  | again (level : Fin (levels + 1)) (hfirst : level ≠ 0) (item : Fin 3) (hitem : item ≠ 0) :
      LaughNode (some (level, item))
        { kind := .aliasNode, target := some (some ((level.pred hfirst).castSucc, 0)) }

theorem laughNode (id : LaughId levels) : LaughNode id (laughs levels id) := by
  match id with
  | none => exact .root
  | some (level, 0) => exact .list level
  | some (level, ⟨item + 1, hbound⟩) =>
    have hitem : (⟨item + 1, hbound⟩ : Fin 3) ≠ 0 := by simp [Fin.ext_iff]
    by_cases hfirst : level = 0
    · rw [hfirst]
      exact .text _ hitem
    · have hnode : laughs levels (some (level, ⟨item + 1, hbound⟩)) =
          { kind := .aliasNode, target := some (some ((level.pred hfirst).castSucc, 0)) } := dif_neg hfirst
      rw [hnode]
      exact .again level hfirst _ hitem

/-- The aliases are the items of all lists but the first. -/
theorem laughs_follows {id target : LaughId levels} (hfollows : Follows (laughs levels) id target) :
    ∃ (level : Fin (levels + 1)) (item : Fin 3) (hfirst : level ≠ 0), item ≠ 0 ∧ id = some (level, item) ∧
      target = some ((level.pred hfirst).castSucc, 0) := by
  obtain ⟨halias, htarget⟩ := hfollows
  have hnode := laughNode id
  generalize laughs levels id = node at hnode halias htarget
  cases hnode with
  | root => cases halias
  | list => cases halias
  | text => cases halias
  | again level hfirst item hitem => exact ⟨level, item, hfirst, hitem, rfl, (Option.some.inj htarget).symm⟩

/-- The parents are the root and the lists. -/
theorem laughs_child {parent child : LaughId levels} (hchild : Child (laughs levels) parent child) :
    (∃ level, parent = none ∧ child = some (level, 0)) ∨
      ∃ level item, item ≠ 0 ∧ parent = some (level, 0) ∧ child = some (level, item) := by
  obtain ⟨_, hmem⟩ := hchild
  have hnode := laughNode parent
  generalize laughs levels parent = node at hnode hmem
  cases hnode with
  | root =>
    obtain ⟨level, _, rfl⟩ := List.mem_map.mp hmem
    exact .inl ⟨level, rfl, rfl⟩
  | list level =>
    rcases List.mem_pair.mp hmem with rfl | rfl
    · exact .inr ⟨level, 1, by decide, rfl, rfl⟩
    · exact .inr ⟨level, 2, by decide, rfl, rfl⟩
  | text => cases hmem
  | again => cases hmem

theorem laughRank_lt {id next : LaughId levels} (hpoints : Points (laughs levels) id next) :
    laughRank next < laughRank id := by
  rcases hpoints with hchild | hfollows
  · rcases laughs_child hchild with ⟨level, rfl, rfl⟩ | ⟨level, item, hitem, rfl, rfl⟩
    · have := level.isLt
      simp only [laughRank, if_true]
      omega
    · simp [laughRank, hitem]
  · obtain ⟨level, item, hfirst, hitem, rfl, rfl⟩ := laughs_follows hfollows
    have hpos : level.val ≠ 0 := fun hzero ↦ hfirst (Fin.ext hzero)
    simp only [laughRank, if_true, if_neg hitem, Fin.val_castSucc, Fin.val_pred]
    omega

theorem laughs_acyclic (id : LaughId levels) : ¬TransGen (Points (laughs levels)) id id := by
  intro hcycle
  have hrank : ∀ {next}, TransGen (Points (laughs levels)) id next → laughRank next < laughRank id := by
    intro next hpath
    induction hpath with
    | single hpoints => exact laughRank_lt hpoints
    | tail _ hpoints ih => exact (laughRank_lt hpoints).trans ih
  exact absurd (hrank hcycle) (lt_irrefl _)

theorem laughs_nested (id : LaughId levels) : ¬TransGen (Child (laughs levels)) id id :=
  fun hcycle ↦ laughs_acyclic id (TransGen.mono (fun _ _ hchild ↦ Or.inl hchild) _ _ hcycle)

theorem laughs_composed : Composed (laughs levels) where
  forest :=
    { parent := by
        intro first second node hfirst hsecond
        rcases laughs_child hfirst with ⟨level, rfl, rfl⟩ | ⟨level, item, hitem, rfl, rfl⟩
        · rcases laughs_child hsecond with ⟨_, rfl, _⟩ | ⟨_, other, hother, _, heq⟩
          · rfl
          · simp only [Option.some.injEq, Prod.mk.injEq] at heq
            exact absurd heq.2.symm hother
        · rcases laughs_child hsecond with ⟨_, _, heq⟩ | ⟨_, _, _, rfl, heq⟩
          · simp only [Option.some.injEq, Prod.mk.injEq] at heq
            exact absurd heq.2 hitem
          · simp only [Option.some.injEq, Prod.mk.injEq] at heq
            rw [heq.1]
      acyclic := laughs_nested }
  nodup id := by
    have hnode := laughNode id
    generalize laughs levels id = node at hnode
    cases hnode with
    | root => exact (List.nodup_finRange _).map fun first second heq ↦ by simpa using heq
    | list level => simp
    | text => exact List.nodup_nil
    | again => exact List.nodup_nil

theorem laughs_wellFormed (root : LaughId levels) : WellFormed (laughs levels) root where
  targets id _ halias := by
    have hnode := laughNode id
    generalize laughs levels id = node at hnode halias
    cases hnode with
    | root => cases halias
    | list => cases halias
    | text => cases halias
    | again level hfirst => exact ⟨_, rfl⟩
  acyclic id _ _ := laughs_acyclic id
  keyed id _ hkind := by
    have hnode := laughNode id
    generalize laughs levels id = node at hnode hkind
    cases hnode with
    | root => cases hkind
    | list => cases hkind
    | text => cases hkind
    | again => cases hkind

variable {level : Fin (levels + 1)}

theorem laughs_again (hfirst : level ≠ 0) {item : Fin 3} (hitem : item ≠ 0) :
    Follows (laughs levels) (some (level, item)) (some ((level.pred hfirst).castSucc, 0)) := by
  unfold Follows
  have hnode := laughNode (some (level, item))
  generalize laughs levels (some (level, item)) = node at hnode ⊢
  cases hnode with
  | list => exact absurd rfl hitem
  | text => exact absurd rfl hfirst
  | again => exact ⟨rfl, rfl⟩

/-- Every list doubles the visits of the one before. -/
theorem laughs_doubles {state after : Traversal (LaughId levels)}
    (hvisit : validateYAMLNode (laughs levels) fuel (some (level, 0)) state = some (.ok (), after)) :
    state.calls + 2 ^ level.val ≤ after.calls := by
  induction hlevel : level.val generalizing level fuel state after with
  | zero => exact calls_lt_of_validate hvisit
  | succ less ih =>
    have hfirst : level ≠ 0 := fun hzero ↦ by simp [hzero] at hlevel
    have hless : (level.pred hfirst).castSucc.val = less := by simp [hlevel]
    cases fuel with
    | zero => cases hvisit
    | succ fuel =>
      cases visited_of_validate hvisit with
      | followed hfollows => cases hfollows.1
      | children _ _ hall =>
        -- each item is an alias of the list before
        have hitem : ∀ id ∈ (laughs levels (some (level, 0))).content, ∀ before next,
            validateYAMLNode (laughs levels) fuel id before = some (.ok (), next) →
              before.calls + 2 ^ less ≤ next.calls := by
          intro id hid before next hitem
          have hfollows : Follows (laughs levels) id (some ((level.pred hfirst).castSucc, 0)) := by
            rcases List.mem_pair.mp hid with rfl | rfl
            · exact laughs_again hfirst (by decide)
            · exact laughs_again hfirst (by decide)
          cases fuel with
          | zero => cases hitem
          | succ fuel =>
            cases visited_of_validate hitem with
            | @followed target _ inner hother _ hinner =>
              have htarget := Option.some.inj (hfollows.2.symm.trans hother.2)
              have hbefore : before.calls + 1 + 2 ^ less ≤ inner.calls := ih (htarget ▸ hinner) hless
              exact (Nat.add_le_add_right (Nat.le_succ _) _).trans hbefore
            | children hkind => exact absurd hfollows.1 hkind
        have hcalls := le_visitAll_calls (fun _ ↦ 2 ^ less) hitem hall
        have hsum : ((laughs levels (some (level, 0))).content.map fun _ ↦ 2 ^ less).sum = 2 ^ (less + 1) := by
          simp only [laughs, List.map_cons, List.map_nil, List.sum_cons, List.sum_nil]
          ring
        have hentered : state.calls ≤ state.enter.calls := Nat.le_succ _
        omega

/-- The work grows exponentially with the number of lists. -/
theorem laughs_makes (levels : Nat) : ∃ calls, 2 ^ levels ≤ calls ∧ Makes (laughs levels) none calls := by
  have hnested : Nested (laughs levels) none := fun id _ ↦ laughs_nested id
  obtain ⟨fuel, ⟨result, after⟩, hvisit⟩ := ends_of_nested hnested .refl .start
  obtain rfl := (validateYAMLNode_exact hvisit).mpr (laughs_wellFormed none)
  let cost (id : LaughId levels) : Nat := id.elim 0 fun place ↦ 2 ^ place.1.val
  have hlast : 2 ^ levels ≤ ((laughs levels none).content.map cost).sum := by
    apply List.le_sum_of_mem
    have hlevel : some (Fin.last levels, (0 : Fin 3)) ∈ (laughs levels none).content :=
      List.mem_map.mpr ⟨Fin.last levels, List.mem_finRange _, rfl⟩
    exact List.mem_map.mpr ⟨_, hlevel, rfl⟩
  cases fuel with
  | zero => cases hvisit
  | succ fuel =>
    cases visited_of_validate hvisit with
    | followed hfollows => cases hfollows.1
    | children _ _ hall =>
      have hcalls : 1 + ((laughs levels none).content.map cost).sum ≤ after.calls := by
        apply le_visitAll_calls cost _ hall
        intro id hid before next hlist
        obtain ⟨level, _, rfl⟩ := List.mem_map.mp hid
        exact laughs_doubles hlist
      exact ⟨after.calls - 1, by omega, fuel + 1, .ok (), after, hvisit, by omega⟩

/-- Exponentials outgrow polynomials in the number of nodes. -/
theorem exists_levels (scale degree : Nat) :
    ∃ levels, scale * Fintype.card (LaughId levels) ^ degree < 2 ^ levels := by
  have hlimit := tendsto_pow_const_div_const_pow_of_one_lt degree (one_lt_two (α := ℝ))
  have hsmall : (0 : ℝ) < 1 / (scale * 7 ^ degree + 1) := by positivity
  obtain ⟨levels, hlevels, hpos⟩ :=
    ((hlimit.eventually (gt_mem_nhds hsmall)).and (Filter.eventually_ge_atTop 1)).exists
  have hratio : (scale * 7 ^ degree + 1 : ℝ) * levels ^ degree < 2 ^ levels := by
    rw [div_lt_div_iff₀ (by positivity) (by positivity), one_mul] at hlevels
    linarith
  have hnodes : Fintype.card (LaughId levels) ≤ 7 * levels := by
    simp only [Fintype.card_option, Fintype.card_prod, Fintype.card_fin]
    omega
  refine ⟨levels, ?_⟩
  calc scale * Fintype.card (LaughId levels) ^ degree
      ≤ scale * (7 * levels) ^ degree := by gcongr
    _ = scale * 7 ^ degree * levels ^ degree := by rw [mul_pow, mul_assoc]
    _ ≤ (scale * 7 ^ degree + 1) * levels ^ degree := by
        gcongr
        exact Nat.le_succ _
    _ < 2 ^ levels := by exact_mod_cast hratio

theorem laughs_outgrow (scale degree : Nat) : ∃ levels calls, Makes (laughs levels) none calls ∧
    scale * Fintype.card (LaughId levels) ^ degree < calls := by
  obtain ⟨levels, hlevels⟩ := exists_levels scale degree
  obtain ⟨calls, hcalls, hmakes⟩ := laughs_makes levels
  exact ⟨levels, calls, hmakes, hlevels.trans_le hcalls⟩

end Laughs

/-- Validation is polynomial in the document exactly when the depth to which aliases nest is bounded. -/
theorem polynomialWork_iff (limit : ℕ∞) : PolynomialWork limit ↔ limit ≠ ⊤ := by
  constructor
  · rintro ⟨scale, degree, hbound⟩ rfl
    obtain ⟨levels, calls, hmakes, hexceeds⟩ := laughs_outgrow scale degree
    exact absurd (hbound _ _ none calls laughs_composed (fun _ _ _ _ ↦ le_top) hmakes) (not_le.mpr hexceeds)
  · intro hlimit
    obtain ⟨depth, rfl⟩ := ENat.ne_top_iff_exists.mp hlimit
    exact ⟨depth + 1, depth + 1, fun _ _ _ _ _ _ hcomposed hnest hmakes ↦
      calls_le_of_nest hcomposed hnest hmakes⟩

/-- No polynomial bounds the work over all documents. -/
theorem laughs_exceed : ¬∃ scale degree, ∀ (Id : Type) [Fintype Id] [DecidableEq Id] (graph : NodeGraph Id)
    (root : Id) (calls : Nat), Composed graph → Makes graph root calls →
      calls ≤ scale * Fintype.card Id ^ degree := by
  rintro ⟨scale, degree, hbound⟩
  obtain ⟨levels, calls, hmakes, hexceeds⟩ := laughs_outgrow scale degree
  exact absurd (hbound _ _ none calls laughs_composed hmakes) (not_le.mpr hexceeds)

end Podmin.Manifest
