import Brushwork.Proofs.Lockstep
import Brushwork.Proofs.Placement

/-!
# Programs that differ in places

A statement does not look at the places of its nodes, save to hand them to its faults, and to tell
the line of the last statement. So two programs that differ in places alone do the same to a
machine, but for that line, and fail with the same causes at places that are related as those of the
programs are.
-/

namespace Brushwork

namespace Tree

variable {Q : Position → Position → Prop} {t t' : Tree} {ts ts' : List Tree}

theorem LikeAll.forall₂ (h : LikeAll Q ts ts') : List.Forall₂ (Like Q) ts ts' := by
  induction ts generalizing ts' with
  | nil =>
    cases h
    exact .nil
  | cons t ts ih =>
    cases h with
    | cons first others => exact .cons first (ih others)

theorem Like.congruent (h : Like Q t t') : t.Congruent Q (Like Q) t' := by
  cases h with
  | spawn place => exact .spawn place
  | assign value place => exact .assign value place
  | label place => exact .label place
  | goto decision place => exact .goto decision place
  | call arguments place => exact .call arguments.forall₂ place
  | literal place => exact .literal place
  | «variable» place => exact .variable place
  | binary first second place => exact .binary first second place
  | unary inner place => exact .unary inner place

theorem Like.position (h : Like Q t t') : Q t.position t'.position := h.congruent.position

theorem LikeAll.getElem? (h : LikeAll Q ts ts') {i : Nat} (ht : ts[i]? = some t)
    (ht' : ts'[i]? = some t') : Like Q t t' := by
  induction ts generalizing ts' i with
  | nil => simp at ht
  | cons u us ih =>
    cases h with
    | cons first others =>
      cases i with
      | zero =>
        obtain rfl : u = t := by simpa using ht
        obtain rfl := Option.some.inj ht'
        exact first
      | succ i => exact ih others (by simpa using ht) ht'

end Tree

namespace Machine

section

open Brushwork.Tree (Like LikeAll)

variable {Q : Position → Position → Prop}

/-- Programs that differ in places alone have the same labels, up to the first that is declared
twice. -/
theorem tabulate_like {ts ts' : List Tree} (h : LikeAll Q ts ts') (index : Nat)
    (labels : Table String Int) :
    (∃ labels', tabulate index labels ts = (labels', none) ∧
      tabulate index labels ts' = (labels', none)) ∨
    ∃ labels' fault p p', tabulate index labels ts = (labels', some ⟨fault, p⟩) ∧
      tabulate index labels ts' = (labels', some ⟨fault, p'⟩) ∧ Q p p' := by
  induction ts generalizing index labels ts' with
  | nil =>
    cases h
    exact Or.inl ⟨labels, rfl, rfl⟩
  | cons t ts ih =>
    cases h with
    | cons first others =>
      cases first with
      | @label name p p' place =>
        simp only [tabulate]
        split
        · exact Or.inr ⟨_, _, _, _, rfl, rfl, place⟩
        · exact ih others (index + 1) _
      | _ => exact ih others (index + 1) labels

/-- Programs that differ in places alone run alike, but for the line of the last statement. -/
theorem lockstep_like {program program' : Program}
    (h : LikeAll Q program.statements program'.statements) :
    Lockstep program program' (fun m m' => ∃ line, m' = m.past line)
      (fun e e' => e'.cause = e.cause ∧ Q e.position e'.position) where
  length := h.forall₂.length_eq
  effect := by
    rintro i s s' m _ m₁ target hs hs' ⟨line, rfl⟩ heffect
    have hlike := (h.getElem? hs hs').congruent
    exact ⟨_, heffect.congruent Like.congruent hlike (fun _ => line) id, s'.position.line, rfl⟩
  fails := by
    rintro i s s' m _ e hs hs' ⟨line, rfl⟩ hfails
    have hlike := (h.getElem? hs hs').congruent
    obtain ⟨p', hfails', hplace⟩ := hfails.congruent Like.congruent hlike (fun _ => line) id
    exact ⟨_, hfails', rfl, hplace⟩
  labels := by
    intro labels hlabels
    rcases tabulate_like h 0 .empty with ⟨labels', h₁, h₂⟩ | ⟨labels', fault, p, p', h₁, -⟩
    · cases h₁.symm.trans hlabels
      exact h₂
    · cases h₁.symm.trans hlabels
  twice := by
    intro labels e hlabels
    rcases tabulate_like h 0 .empty with ⟨labels', h₁, h₂⟩ | ⟨labels', fault, p, p', h₁, h₂, hplace⟩
    · cases h₁.symm.trans hlabels
    · cases h₁.symm.trans hlabels
      exact ⟨_, h₂, rfl, hplace⟩
  withLabels := by
    rintro m _ labels ⟨line, rfl⟩
    exact ⟨line, rfl⟩
  aim := by
    rintro m _ q ⟨line, rfl⟩
    exact ⟨line, rfl⟩

end

end Machine

end Brushwork
