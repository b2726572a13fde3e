import Podmin.Foundation.Text

/-!
# Framed sequences

When a sequence of blocks can be read back from its concatenation: texts that are terminated by a
character they do not contain, and blocks that begin with a header of fixed length whose items are told
apart from all others.
-/

namespace Podmin.Foundation.Framing

open List

/-! ## Terminated texts -/

/-- Every text followed by the terminator. -/
def terminated (terminator : Char) (texts : List String) : String :=
  String.join (texts.map (· ++ String.singleton terminator))

@[simp]
theorem terminated_nil (terminator : Char) : terminated terminator [] = "" := rfl

theorem terminated_cons (terminator : Char) (text : String) (texts : List String) :
    terminated terminator (text :: texts) = text ++ String.singleton terminator ++
      terminated terminator texts := by
  simp [terminated, String.join_cons]

theorem terminated_append (terminator : Char) (left right : List String) :
    terminated terminator (left ++ right) = terminated terminator left ++ terminated terminator right := by
  induction left with
  | nil => simp
  | cons text texts ih => rw [cons_append, terminated_cons, terminated_cons, ih, ← String.append_assoc]

theorem terminated_flatMap {Item : Type*} (terminator : Char) (fields : Item → List String)
    (items : List Item) :
    String.join (items.map fun item ↦ terminated terminator (fields item)) =
      terminated terminator (items.flatMap fields) := by
  induction items with
  | nil => rfl
  | cons item items ih =>
    rw [map_cons, String.join_cons, ih, flatMap_cons, terminated_append]

theorem terminated_cons_ne (terminator : Char) (text : String) (texts : List String) :
    terminated terminator (text :: texts) ≠ "" := by
  intro hempty
  have hchars := congrArg String.toList hempty
  rw [terminated_cons] at hchars
  simp at hchars

/-- Texts without the terminator can be read back. -/
theorem terminated_injective {terminator : Char} {left right : List String}
    (hleft : ∀ text ∈ left, terminator ∉ text.toList) (hright : ∀ text ∈ right, terminator ∉ text.toList)
    (heq : terminated terminator left = terminated terminator right) : left = right := by
  induction left generalizing right with
  | nil =>
    cases right with
    | nil => rfl
    | cons text texts => exact absurd heq.symm (terminated_cons_ne terminator text texts)
  | cons text texts ih =>
    cases right with
    | nil => exact absurd heq (terminated_cons_ne terminator text texts)
    | cons other others =>
      rw [terminated_cons, terminated_cons] at heq
      obtain ⟨rfl, hrest⟩ := Text.separated_inj_first (hleft text mem_cons_self)
        (hright other mem_cons_self) heq
      rw [ih (fun later hlater ↦ hleft later (mem_cons_of_mem _ hlater))
        (fun later hlater ↦ hright later (mem_cons_of_mem _ hlater)) hrest]

/-! ## Blocks -/

section Blocks

variable {Item Block : Type*}

/-- A run of items that meet a test ends where the first one does not. -/
theorem takeWhile_append_eq {test : Item → Bool} {run rest : List Item} (hrun : ∀ item ∈ run, test item = true)
    (hrest : ∀ item ∈ rest.head?, test item = false) : (run ++ rest).takeWhile test = run := by
  rw [takeWhile_append_of_pos hrun]
  cases rest with
  | nil => simp
  | cons item items =>
    have hitem : test item = false := hrest item rfl
    simp [hitem]

/-- Two runs that are told apart from what follows them can be read back. -/
theorem append_injective {test : Item → Bool} {run other rest tail : List Item}
    (hrun : ∀ item ∈ run, test item = true) (hother : ∀ item ∈ other, test item = true)
    (hrest : ∀ item ∈ rest.head?, test item = false) (htail : ∀ item ∈ tail.head?, test item = false)
    (heq : run ++ rest = other ++ tail) : run = other ∧ rest = tail := by
  have hruns := congrArg (takeWhile test) heq
  rw [takeWhile_append_eq hrun hrest, takeWhile_append_eq hother htail] at hruns
  rw [hruns] at heq
  exact ⟨hruns, append_cancel_left heq⟩

variable {header body : Block → List Item} {test : Item → Bool} {length : Nat}

/-- A block has a header of fixed length, whose items fail the test that those of its body meet. -/
structure Framed (header body : Block → List Item) (test : Item → Bool) (length : Nat)
    (block : Block) : Prop where
  length : (header block).length = length
  header : ∀ item ∈ header block, test item = false
  body : ∀ item ∈ body block, test item = true

theorem head?_flatMap (hlength : 0 < length) {blocks : List Block}
    (hframed : ∀ block ∈ blocks, Framed header body test length block) :
    ∀ item ∈ (blocks.flatMap fun block ↦ header block ++ body block).head?, test item = false := by
  intro item hitem
  cases blocks with
  | nil => simp at hitem
  | cons block blocks =>
    have hblock := hframed block mem_cons_self
    cases hheader : header block with
    | nil =>
      have hzero := hblock.length
      rw [hheader] at hzero
      exact absurd hzero (Nat.ne_of_lt hlength)
    | cons first rest =>
      rw [flatMap_cons, hheader] at hitem
      have hfirst : first = item := by simpa using hitem
      rw [← hfirst]
      exact hblock.header first (by rw [hheader]; exact mem_cons_self)

/-- Framed blocks can be read back from their concatenation. -/
theorem flatMap_injective (hlength : 0 < length) {left right : List Block}
    (hleft : ∀ block ∈ left, Framed header body test length block)
    (hright : ∀ block ∈ right, Framed header body test length block)
    (heq : (left.flatMap fun block ↦ header block ++ body block) =
      right.flatMap fun block ↦ header block ++ body block) :
    left.map (fun block ↦ (header block, body block)) = right.map fun block ↦ (header block, body block) := by
  have hnonempty : ∀ block (blocks : List Block), Framed header body test length block →
      ((block :: blocks).flatMap fun block ↦ header block ++ body block) ≠ [] := by
    intro block blocks hblock hnil
    rw [flatMap_cons, append_eq_nil_iff, append_eq_nil_iff] at hnil
    have hzero := hblock.length
    rw [hnil.1.1] at hzero
    exact absurd hzero (Nat.ne_of_lt hlength)
  induction left generalizing right with
  | nil =>
    cases right with
    | nil => rfl
    | cons block blocks => exact absurd heq.symm (hnonempty block blocks (hright block mem_cons_self))
  | cons block blocks ih =>
    have hblock := hleft block mem_cons_self
    have hblocks := fun later hlater ↦ hleft later (mem_cons_of_mem block hlater)
    cases right with
    | nil => exact absurd heq (hnonempty block blocks hblock)
    | cons other others =>
      have hother := hright other mem_cons_self
      have hothers := fun later hlater ↦ hright later (mem_cons_of_mem other hlater)
      rw [flatMap_cons, flatMap_cons, append_assoc, append_assoc] at heq
      obtain ⟨hheader, hrest⟩ := append_inj heq (hblock.length.trans hother.length.symm)
      obtain ⟨hbody, htail⟩ := append_injective hblock.body hother.body (head?_flatMap hlength hblocks)
        (head?_flatMap hlength hothers) hrest
      rw [map_cons, map_cons, hheader, hbody, ih hblocks hothers htail]

end Blocks

end Podmin.Foundation.Framing
