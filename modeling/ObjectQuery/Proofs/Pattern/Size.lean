import ObjectQuery.Pattern.Size
import Mathlib.Data.List.Basic

/-!
What the machines of a pattern need once it stands between anchors.
-/

namespace ObjectQuery.Pattern

namespace Outline

def isBranches : Outline → Bool
  | branches .. => true
  | _ => false

/-- Branches have none among their parts, and are what their parts come to. -/
def Settled : Outline → Prop
  | branches parts measure =>
    (∀ p ∈ parts, p.isBranches = false) ∧ oneOf parts = branches parts measure
  | _ => True

theorem Settled.of_not_branches {p : Outline} (h : p.isBranches = false) : p.Settled := by
  cases p with
  | branches => cases h
  | _ => trivial

theorem alternatives_of_not_branches {p : Outline} (h : p.isBranches = false) :
    p.alternatives = [p] := by
  cases p with
  | branches => cases h
  | _ => rfl

theorem flatMap_alternatives {parts : List Outline} (h : ∀ p ∈ parts, p.isBranches = false) :
    parts.flatMap alternatives = parts := by
  rw [List.flatMap_congr fun p hp => alternatives_of_not_branches (h p hp)]
  simp

theorem Settled.isBranches_of_mem {p part : Outline} (h : p.Settled)
    (hmem : part ∈ p.alternatives) :
    part.isBranches = false := by
  cases p with
  | branches parts measure => exact h.1 part hmem
  | _ =>
    rw [List.mem_singleton.mp hmem]
    rfl

theorem isBranches_ofSpans (spans : List Span) : (ofSpans spans).isBranches = false := by
  rw [ofSpans.eq_def]
  split
  · split <;> rfl
  · rfl

theorem settled_oneOf {parts : List Outline} (h : ∀ p ∈ parts, p.Settled) :
    (oneOf parts).Settled := by
  have hflat : ∀ p ∈ parts.flatMap alternatives, p.isBranches = false := by
    intro p hp
    obtain ⟨q, hq, hpq⟩ := List.mem_flatMap.mp hp
    exact (h q hq).isBranches_of_mem hpq
  have hagain : oneOf (parts.flatMap alternatives) = oneOf parts := by
    rw [oneOf.eq_def, oneOf.eq_def parts, flatMap_alternatives hflat]
  rw [← hagain]
  generalize parts.flatMap alternatives = flat at hflat
  rw [oneOf, flatMap_alternatives hflat]
  split
  · exact .of_not_branches (hflat _ (List.mem_singleton_self _))
  · split
    · exact .of_not_branches (isBranches_ofSpans _)
    · refine ⟨hflat, ?_⟩
      rw [oneOf, flatMap_alternatives hflat]
      simp_all

theorem Settled.oneOf_singleton {p : Outline} (h : p.Settled) : oneOf [p] = p := by
  cases p with
  | branches parts measure =>
    have hparts := h.2
    rw [oneOf, flatMap_alternatives h.1] at hparts
    rw [oneOf, List.flatMap_singleton]
    exact hparts
  | _ => rfl

theorem Settled.seq {p q : Outline} (hp : p.Settled) (hq : q.Settled) : (p.seq q).Settled := by
  rw [Outline.seq.eq_def]
  split
  · exact hq
  · exact hp
  · trivial
  · trivial

theorem Settled.times {p : Outline} (hp : p.Settled) (least : Nat) (most : Option Nat) :
    (p.times least most).Settled := by
  rw [Outline.times]
  split
  · trivial
  · exact hp
  · trivial

end Outline

open Outline

theorem settled_outlines (p : Pattern) : ∀ part ∈ outlines p, part.Settled := by
  induction p with
  | empty => simp [outlines, Settled]
  | one set =>
    simp only [outlines, List.mem_singleton, forall_eq]
    exact .of_not_branches (isBranches_ofSpans _)
  | anchor a => simp [outlines, Settled]
  | seq p q ihp ihq =>
    simp only [outlines, List.mem_singleton, forall_eq]
    exact (settled_oneOf ihp).seq (settled_oneOf ihq)
  | alt p q ihp ihq =>
    simp only [outlines, List.mem_cons, forall_eq_or_imp]
    exact ⟨settled_oneOf ihp, ihq⟩
  | times p least most ih =>
    simp only [outlines, List.mem_singleton, forall_eq]
    exact (settled_oneOf ih).times least most
  | group captures p ih =>
    simp only [outlines, List.mem_singleton, forall_eq]
    split
    · trivial
    · exact settled_oneOf ih

/-- A pattern in a group that keeps nothing, between anchors at both ends of the text. -/
def enclosed (p : Pattern) : Pattern :=
  .seq (.anchor .textStart) (.seq (.group false p) (.anchor .textEnd))

/-- What an anchor comes to. -/
def anchorOutline : Outline := .other ⟨.both stateSize, false, true⟩

theorem oneOf_outlines_enclosed (p : Pattern) :
    Outline.oneOf (outlines (enclosed p)) =
      anchorOutline.seq ((Outline.oneOf (outlines p)).seq anchorOutline) := by
  have hpart : (Outline.oneOf (outlines p)).Settled := settled_oneOf (settled_outlines p)
  have hinner : ((Outline.oneOf (outlines p)).seq anchorOutline).Settled := hpart.seq trivial
  have houter : (anchorOutline.seq ((Outline.oneOf (outlines p)).seq anchorOutline)).Settled :=
    Settled.seq trivial hinner
  calc Outline.oneOf (outlines (enclosed p))
      = Outline.oneOf [anchorOutline.seq
          (Outline.oneOf [(Outline.oneOf [Outline.oneOf (outlines p)]).seq anchorOutline])] := rfl
    _ = anchorOutline.seq ((Outline.oneOf (outlines p)).seq anchorOutline) := by
      rw [hpart.oneOf_singleton, hinner.oneOf_singleton, houter.oneOf_singleton]

theorem sizes_eq (p : Pattern) :
    p.sizes = ((Outline.oneOf (outlines p)).measure.sizes.add ⟨2 * stateSize, 0⟩).add
      (.both (2 * stateSize)) :=
  rfl

theorem sizes_enclosed (p : Pattern) :
    (enclosed p).sizes = match Outline.oneOf (outlines p) with
      | .empty => p.sizes.add (.both stateSize)
      | _ => p.sizes.add (.both (2 * stateSize)) := by
  rw [sizes_eq, sizes_eq p, oneOf_outlines_enclosed]
  cases Outline.oneOf (outlines p) <;>
    simp [Outline.seq, anchorOutline, Outline.measure, Sizes.add, Sizes.both] <;> omega

/-- Anchors take a state each, for which a limit has to leave room. -/
theorem fits_enclosed_iff (p : Pattern) :
    (enclosed p).fits ↔
      p.sizes.forward + 2 * stateSize ≤ sizeLimit ∧
        p.sizes.backward + 2 * stateSize ≤ sizeLimit := by
  have hsizes := sizes_enclosed p
  rw [fits, Bool.and_eq_true, decide_eq_true_iff, decide_eq_true_iff, hsizes]
  split
  · -- A pattern of no text is far below the limit.
    rename_i hempty
    rw [sizes_eq, hempty]
    decide
  · rfl

end ObjectQuery.Pattern
