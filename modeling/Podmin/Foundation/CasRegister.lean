import Mathlib.Data.List.Chain
import Mathlib.Order.RelClasses

/-!
# Compare-and-swap registers

A register holds one object of a store with conditional writes. Every object body has a tag, and a
write names the tag of the body it replaces, or no tag when it may only create the object. Tags of
different bodies differ; a tag may be a content hash, so that an old tag becomes current again when
an old body does.

The register keeps every body ever written, newest first, so the current object is the head of the
history. A writer that reads a body, computes a successor of it and writes the successor under the
tag it read extends the history by a successor of the then current body, whatever happened in
between. Order and uniqueness properties of the history follow from the successor relation alone.
-/

namespace Podmin.Foundation.CasRegister

/-- A naming of bodies by tags in which a tag stands for one body. -/
structure Tagging (Body Tag : Type*) where
  tag : Body → Tag
  injective : Function.Injective tag

/-- All bodies written to one object, newest first. -/
abbrev History (Body : Type*) := List Body

variable {Body Tag : Type*}

/-- A conditional write under `version` is admitted when `version` names the current object; the
absent version is create-only. -/
def Admits (tagging : Tagging Body Tag) (history : History Body) (version : Option Tag) : Prop :=
  version = history.head?.map tagging.tag

instance [DecidableEq Tag] (tagging : Tagging Body Tag) (history : History Body)
    (version : Option Tag) : Decidable (Admits tagging history version) :=
  inferInstanceAs (Decidable (version = history.head?.map tagging.tag))

/-- What a body may be written over: nothing, or the body it succeeds. -/
def Follows (first : Body → Prop) (next : Body → Body → Prop) : Option Body → Body → Prop
  | none, body => first body
  | some previous, body => next previous body

/-- Every body of the history followed the one before it. -/
def Lawful (first : Body → Prop) (next : Body → Body → Prop) : History Body → Prop
  | [] => True
  | body :: history => Follows first next history.head? body ∧ Lawful first next history

variable {first : Body → Prop} {next : Body → Body → Prop}

variable {tagging : Tagging Body Tag} {history : History Body}

/-- An admitted write under the tag of a body that was read replaces that very body. -/
theorem Admits.head?_eq {base : Option Body} (hadmits : Admits tagging history (base.map tagging.tag)) :
    history.head? = base :=
  (Option.map_injective tagging.injective hadmits).symm

/-- Adjacent bodies are related by the successor relation. -/
theorem Lawful.isChain (hlawful : Lawful first next history) :
    history.IsChain (fun newer older ↦ next older newer) := by
  induction history with
  | nil => exact List.isChain_nil
  | cons body history ih =>
    cases history with
    | nil => exact List.isChain_singleton body
    | cons older history =>
      exact List.isChain_cons_cons.mpr ⟨hlawful.1, ih hlawful.2⟩

/-- A transitive relation that contains the successor relation relates every newer body to every
older one. -/
theorem Lawful.pairwise (hlawful : Lawful first next history) (before : Body → Body → Prop)
    [IsTrans Body before] (hnext : ∀ older newer, next older newer → before older newer) :
    history.Pairwise (fun newer older ↦ before older newer) := by
  have htrans : IsTrans Body (fun newer older ↦ before older newer) :=
    ⟨fun _ _ _ hleft hright ↦ IsTrans.trans _ _ _ hright hleft⟩
  exact List.isChain_iff_pairwise.mp (hlawful.isChain.imp fun newer older ↦ hnext older newer)

/-- When successors strictly increase a key, the key of a written body determines the body. -/
theorem Lawful.eq_of_key_eq {Key : Type*} [Preorder Key] (hlawful : Lawful first next history)
    (key : Body → Key) (hnext : ∀ older newer, next older newer → key older < key newer) {left right : Body}
    (hleft : left ∈ history) (hright : right ∈ history) (hkey : key left = key right) : left = right := by
  have htrans : IsTrans Body (fun older newer ↦ key older < key newer) :=
    ⟨fun _ _ _ hab hbc ↦ hab.trans hbc⟩
  have hpairwise := hlawful.pairwise (fun older newer ↦ key older < key newer) hnext
  have hdistinct : history.Pairwise (fun newer older ↦ key newer ≠ key older) :=
    hpairwise.imp fun hlt ↦ hlt.ne'
  have hsymm : Std.Symm (fun newer older : Body ↦ key newer ≠ key older) :=
    ⟨fun _ _ hkeys ↦ hkeys.symm⟩
  by_contra hne
  exact hdistinct.forall hleft hright hne hkey

end Podmin.Foundation.CasRegister
