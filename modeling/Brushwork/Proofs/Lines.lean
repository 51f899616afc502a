import Brushwork.Machine.Run
import Brushwork.Proofs.Placement
import Brushwork.Source

/-!
# Lines of statements

A newline raises the line of the tokens behind it, and nothing lowers it. A statement takes its
place from its first token and is followed by a newline, so the statements of a text that compiles
stand on rising lines. The line of a statement therefore leads back to it.
-/

namespace Brushwork

namespace Position

theorem line_le_advance (p : Position) (cs : List Char) : p.line ≤ (p.advance cs).line := by
  induction cs generalizing p with
  | nil => exact Int.le_refl _
  | cons c cs ih =>
    have hc : p.line ≤ (p.after c).line := by
      unfold after
      split
      · exact Int.le_add_one (Int.le_refl _)
      · exact Int.le_refl _
    exact Int.le_trans hc (ih _)

end Position

namespace Token

/-- Tokens whose lines do not fall, start at a given line, and rise behind each newline. -/
def Rising (line : Int) : List Token → Prop
  | [] => True
  | t :: ts =>
    line ≤ t.position.line ∧
      Rising (if t.kind = .newline then t.position.line + 1 else t.position.line) ts

theorem Rising.mono {line line' : Int} {ts : List Token} (h : Rising line ts) (hle : line' ≤ line) :
    Rising line' ts := by
  cases ts with
  | nil => trivial
  | cons t ts => exact ⟨Int.le_trans hle h.1, h.2⟩

theorem Rising.of_suffix {line : Int} {ts us : List Token} (h : Rising line ts) (hs : us <:+ ts) :
    Rising line us := by
  induction ts generalizing line with
  | nil => rw [List.suffix_nil.1 hs]; trivial
  | cons t ts ih =>
    rcases List.suffix_cons_iff.1 hs with rfl | hs
    · exact h
    · apply (ih h.2 hs).mono
      have := h.1
      split <;> omega

theorem Rising.of_prefix {line : Int} {ts us : List Token} (h : Rising line ts) (hp : us <+: ts) :
    Rising line us := by
  induction us generalizing line ts with
  | nil => trivial
  | cons u us ih =>
    obtain ⟨vs, rfl⟩ := hp
    exact ⟨h.1, ih h.2 (List.prefix_append us vs)⟩

theorem Rising.abreast {line : Int} {ts : List Token} (h : Rising line ts) :
    Abreast (fun _ _ => True) (fun us _ => Rising (line + 1) us) ts ts := by
  induction ts with
  | nil => exact .nil
  | cons t ts ih =>
    obtain ⟨hle, hrest⟩ := h
    by_cases hkind : t.kind = .newline
    · rw [if_pos hkind] at hrest
      exact .newline ⟨rfl, rfl, trivial⟩ hkind (hrest.mono (Int.add_le_add_right hle 1))
    · rw [if_neg hkind] at hrest
      exact .token ⟨rfl, rfl, trivial⟩ hkind (ih (hrest.mono hle))

theorem munch_piece (cs : List Char) :
    (munch cs).2 = [] ∨ (munch cs).2 = (munch cs).1.piece cs := by
  have hfold : ∀ (rules : List Rule) (best : Rule × List Char),
      best.2 = [] ∨ best.2 = best.1.piece cs →
      let last := rules.foldl (fun best rule =>
        let text := rule.piece cs
        if best.2.length < text.length then (rule, text) else best) best
      last.2 = [] ∨ last.2 = last.1.piece cs := by
    intro rules
    induction rules with
    | nil => exact fun _ h => h
    | cons rule rules ih =>
      intro best h
      apply ih
      dsimp only
      split
      · exact Or.inr rfl
      · exact h
  exact hfold Rule.all (.word, []) (Or.inl rfl)

theorem rule_of_classify_newline {rule : Rule} {text : List Char} {next : Option Char}
    (h : rule.classify text next = .ok (some .newline)) : rule = .newline := by
  cases rule with
  | newline => rfl
  | word =>
    have hk : ∀ e ∈ Kind.keywords, e.2 ≠ .newline := by decide
    simp only [Rule.classify] at h
    split at h
    · rename_i k hlookup
      obtain rfl : k = .newline := by simpa using h
      obtain ⟨before, after, hsplit, -⟩ := List.lookup_eq_some_iff.1 hlookup
      exact absurd rfl (hk (String.ofList text, .newline) (by rw [hsplit]; simp))
    · split at h <;> simp at h
  | number =>
    simp only [Rule.classify] at h
    split at h
    · split at h <;> simp at h
    · simp at h
  | operator =>
    have hk : Kind.newline ∉ Kind.operators := by decide
    simp only [Rule.classify, Except.ok.injEq] at h
    exact absurd (List.mem_of_find?_eq_some h) hk
  | punctuation =>
    have hk : Kind.newline ∉ Kind.punctuation := by decide
    simp only [Rule.classify, Except.ok.injEq] at h
    exact absurd (List.mem_of_find?_eq_some h) hk
  | blank => simp [Rule.classify] at h
  | string => simp [Rule.classify] at h

theorem rising_of_scan {cs : List Char} {p : Position} {ts : List Token} (h : scan cs p = .ok ts) :
    Rising p.line ts := by
  fun_induction scan cs p generalizing ts with
  | case1 p =>
    cases h
    exact ⟨Int.le_refl _, trivial⟩
  | case2 => cases h
  | case3 => cases h
  | case4 => cases h
  | case5 c cs p rule d text hmunch rest tokens hscan k hclassify =>
    rename_i ih
    cases h
    refine ⟨Int.le_refl _, (ih hscan).mono ?_⟩
    split
    · rename_i hk
      change k = .newline at hk
      subst k
      have hrule := rule_of_classify_newline hclassify
      have hpiece := munch_piece (c :: cs)
      rw [hmunch, hrule] at hpiece
      simp only [Rule.piece, reduceCtorEq, false_or] at hpiece
      split at hpiece
      · rw [hpiece]
        exact Int.le_refl _
      · cases hpiece
    · exact p.line_le_advance _
  | case6 c cs p rule d text hmunch rest tokens hscan hclassify =>
    rename_i ih
    cases h
    exact (ih hscan).mono (p.line_le_advance _)

end Token

namespace Tree

theorem position_of_readStatement {stop : Position} {t : Token} {ts : List Token}
    {r : Parsed Tree (ts.length + 1)} (h : readStatement stop t ts = .ok r) :
    r.value.position = t.position := by
  unfold readStatement at h
  repeat' split at h
  all_goals
    cases h
    try rfl

/-- Behind the line of a statement the tokens have risen above it. -/
theorem rising_of_readStatement {stop : Position} {line : Int} {t next : Token}
    {ts rest : List Token} {statement : Tree} {hlt : (next :: rest).length < ts.length + 1}
    (hts : Token.Rising line ts) (h : readStatement stop t ts = .ok ⟨statement, next :: rest, hlt⟩)
    (hnewline : next.kind = .newline) : Token.Rising (line + 1) rest := by
  have hbounds : Bounds (fun _ _ => True) (fun _ _ => True) stop stop :=
    ⟨fun _ => trivial, trivial⟩
  have hread := echoes_readStatement hbounds (t := t) ⟨rfl, rfl, trivial⟩ hts.abreast
  rw [h] at hread
  cases hread with
  | ok _ abreast =>
    cases abreast with
    | token _ inner => exact absurd hnewline inner
    | newline _ _ behind => exact behind

/-- Statements on rising lines, the first of them at a given line or behind it. -/
def Ascending (line : Int) : List Tree → Prop
  | [] => True
  | s :: statements => line ≤ s.position.line ∧ Ascending (s.position.line + 1) statements

theorem ascending_of_readStatements {stop : Position} {line : Int} {ts : List Token}
    {statements : List Tree} (hts : Token.Rising line ts)
    (h : readStatements stop ts = .ok statements) : Ascending line statements := by
  fun_induction readStatements stop ts generalizing line statements with
  | case1 =>
    cases h
    trivial
  | case2 => cases h
  | case3 t more statement _ hread =>
    cases h
    have hposition : statement.position = t.position := position_of_readStatement hread
    exact ⟨hposition ▸ hts.1, trivial⟩
  | case4 => cases h
  | case5 t more statement next rest _ hread hnewline others hothers ih =>
    cases h
    have hposition : statement.position = t.position := position_of_readStatement hread
    have hmore : Token.Rising t.position.line more := by
      apply hts.2.mono
      split <;> omega
    have hrest := rising_of_readStatement hmore hread hnewline
    refine ⟨hposition ▸ hts.1, ih ?_ hothers⟩
    rw [hposition]
    exact hrest.of_suffix (List.dropWhile_suffix _)
  | case6 => cases h

theorem Ascending.add_le {line : Int} {statements : List Tree} (h : Ascending line statements)
    {i : Nat} {s : Tree} (hs : statements[i]? = some s) : line + i ≤ s.position.line := by
  induction statements generalizing line i with
  | nil => simp at hs
  | cons first statements ih =>
    cases i with
    | zero =>
      obtain rfl : first = s := by simpa using hs
      simpa using h.1
    | succ i =>
      have := ih h.2 (by simpa using hs)
      have := h.1
      push_cast
      omega

theorem Ascending.lt {line : Int} {statements : List Tree} (h : Ascending line statements)
    {i j : Nat} {s t : Tree} (hs : statements[i]? = some s) (ht : statements[j]? = some t)
    (hij : i < j) : s.position.line < t.position.line := by
  induction statements generalizing line i j with
  | nil => simp at hs
  | cons first statements ih =>
    obtain ⟨j, rfl⟩ : ∃ k, j = k + 1 := ⟨j - 1, by omega⟩
    have ht : statements[j]? = some t := by simpa using ht
    cases i with
    | zero =>
      obtain rfl : first = s := by simpa using hs
      have := h.2.add_le ht
      omega
    | succ i => exact ih h.2 (by simpa using hs) ht (by omega)

end Tree

namespace Program

/-- A program as it comes from a text: its statements stand on rising lines, which count from
one. -/
def Laid (p : Program) : Prop := Tree.Ascending 1 p.statements

end Program

theorem Tree.laid_of_parse {ts : List Token} {program : Program} (hts : Token.Rising 1 ts)
    (h : parse ts = .ok program) : program.Laid := by
  unfold parse at h
  split at h
  · cases h
  · cases h
  · rename_i first others hread
    cases h
    have hbody := hts.of_prefix (List.takeWhile_prefix fun t : Token => t.kind ≠ .endOfFile)
    exact ascending_of_readStatements (hbody.of_suffix (List.dropWhile_suffix _)) hread

theorem Source.laid_of_compile {source : String} {program : Program}
    (h : compile source = .ok program) : program.Laid := by
  unfold compile at h
  split at h
  · cases h
  · rename_i tokens htokens
    split at h
    · cases h
    · rename_i hparse
      cases h
      exact Tree.laid_of_parse (Token.rising_of_scan htokens) hparse

namespace Machine

theorem startIndex_line {program : Program} (h : program.Laid) {i : Nat} {line : Int}
    (hi : program.line? i = some line) : startIndex program line = i := by
  obtain ⟨s, hs, rfl⟩ := Option.map_eq_some_iff.1 hi
  have hlow := h.add_le hs
  unfold startIndex
  split
  · omega
  · obtain ⟨hlt, rfl⟩ := List.getElem?_eq_some_iff.1 hs
    rw [List.findIdx_eq hlt]
    refine ⟨by simp, fun j hj => ?_⟩
    have := h.lt (List.getElem?_eq_getElem (Nat.lt_trans hj hlt)) hs hj
    simpa using this

end Machine
end Brushwork
