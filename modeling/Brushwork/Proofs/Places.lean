import Brushwork.Proofs.Placement
import Brushwork.Proofs.Scanning

/-!
# Places of a text

Counting lines and columns behind a part of a text comes to a place on one of its lines. The tokens
of a text stand at such places, and those up to a newline stand on one line. The parser hands their
places on, so the nodes of a statement stand on one line too, each where some token starts, and a
refusal speaks of the start of a token.
-/

namespace Brushwork

namespace Source

def lines (source : String) : List (List Char) := source.toList.splitOn '\n'

/-- A place in a text: on one of its lines, at a character of the line or right behind the last
one. -/
def Points (source : String) (p : Position) : Prop :=
  ∃ k : Fin (lines source).length,
    p.line = k.val + 1 ∧ 1 ≤ p.column ∧ p.column ≤ ((lines source).get k).length + 1

/-- The place of a token of a text, the end token included, which is where its lexeme starts. -/
def StartsToken (source : String) (p : Position) : Prop :=
  ∃ tokens t before after, Token.tokenize source = .ok tokens ∧ t ∈ tokens ∧ t.position = p ∧
    source.toList = before ++ (t.lexeme.toList ++ after) ∧ p = Position.behind before

/-- What stands before a place since the last newline belongs to the line that the newlines before
it count. -/
theorem exists_line (before rest : List Char) :
    ∃ line, ((before ++ rest).splitOn '\n')[before.count '\n']? = some line ∧
      (before.reverse.takeWhile fun c => c ≠ '\n').length ≤ line.length := by
  induction before with
  | nil =>
    obtain ⟨line, others, hlines⟩ := List.exists_cons_of_ne_nil (List.splitOn_ne_nil '\n' rest)
    exact ⟨line, by simp [hlines], Nat.zero_le _⟩
  | cons c before ih =>
    obtain ⟨line, hline, hlength⟩ := ih
    rw [List.cons_append, List.splitOn_cons_eq_if_modifyHead, List.reverse_cons,
      List.takeWhile_append]
    by_cases hc : c = '\n'
    · subst hc
      refine ⟨line, by simpa using hline, ?_⟩
      split
      · rename_i hall
        rw [hall] at hlength
        simpa using hlength
      · exact hlength
    · have hcount : (c :: before).count '\n' = before.count '\n' := by simp [hc]
      rw [if_neg (by simpa using hc), hcount, List.getElem?_modifyHead, hline]
      by_cases hfirst : before.count '\n' = 0
      · refine ⟨c :: line, by simp [hfirst], ?_⟩
        split
        · rename_i hall
          rw [hall] at hlength
          simpa [hc] using hlength
        · exact Nat.le_succ_of_le hlength
      · refine ⟨line, by simp [hfirst], ?_⟩
        have hnewline : '\n' ∈ before := List.count_pos_iff.1 (Nat.pos_of_ne_zero hfirst)
        rw [if_neg]
        · exact hlength
        · intro hall
          have hsame := List.IsPrefix.eq_of_length (List.takeWhile_prefix _) hall
          have := List.all_eq_true.1 List.all_takeWhile '\n' (hsame ▸ List.mem_reverse.2 hnewline)
          simp at this

theorem points_behind {source : String} {before rest : List Char}
    (h : source.toList = before ++ rest) : Points source (Position.behind before) := by
  obtain ⟨line, hline, hlength⟩ := exists_line before rest
  rw [← h] at hline
  obtain ⟨hlt, hget⟩ := List.getElem?_eq_some_iff.1 hline
  refine ⟨⟨before.count '\n', hlt⟩, Int.add_comm .., ?_, ?_⟩
  · simp only [Position.behind]
    omega
  · rw [show (lines source).get ⟨_, hlt⟩ = line from hget]
    simp only [Position.behind]
    omega

theorem StartsToken.points {source : String} {p : Position} (h : StartsToken source p) :
    Points source p := by
  obtain ⟨_, _, before, after, -, -, -, hsplit, rfl⟩ := h
  exact points_behind hsplit

theorem startsToken_of_mem {source : String} {tokens : List Token}
    (h : Token.tokenize source = .ok tokens) {t : Token} (ht : t ∈ tokens) :
    StartsToken source t.position := by
  obtain ⟨segments, rfl, -, hwritten, hstands⟩ := (Token.lexed_of_tokenize h).segments
  obtain ⟨s, hs, rfl⟩ := List.mem_map.1 ht
  obtain ⟨before, after, rfl⟩ := List.append_of_mem hs
  refine ⟨_, s.token, _, Token.written after, h, ht, rfl, ?_, (hstands before s after rfl).position⟩
  rw [← hwritten]
  simp [Token.written, Token.Segment.text]

end Source

/-! ### Tokens of a line -/

theorem Position.line_advance {cs : List Char} (h : '\n' ∉ cs) (p : Position) :
    (p.advance cs).line = p.line := by
  induction cs generalizing p with
  | nil => rfl
  | cons c cs ih =>
    obtain ⟨hc, hcs⟩ := not_or.1 (mt List.mem_cons.2 h)
    rw [advance_cons, ih hcs, after, if_neg (Ne.symm hc)]

namespace Token

/-- Tokens line by line: up to a newline they stand on a given line, and behind it on another
one. -/
inductive Lined : Int → List Token → Prop
  | nil {line : Int} : Lined line []
  | token {line : Int} {t : Token} {ts : List Token} (place : t.position.line = line)
      (inner : t.kind ≠ .newline) (rest : Lined line ts) : Lined line (t :: ts)
  | newline {line line' : Int} {t : Token} {ts : List Token} (place : t.position.line = line)
      (last : t.kind = .newline) (rest : Lined line' ts) : Lined line (t :: ts)

theorem Scans.lined {cs : List Char} {p : Position} {tokens : List Token} (h : Scans cs p tokens) :
    Lined p.line tokens := by
  induction h with
  | nil => exact .token rfl nofun .nil
  | @token rule text rest kind p tokens described longest classified more ih =>
    by_cases hkind : kind = .newline
    · exact .newline rfl hkind ih
    · have hrule : rule ≠ .newline := by
        rintro rfl
        cases classified
        exact hkind rfl
      rw [Position.line_advance (described.newline_notMem hrule)] at ih
      exact .token rfl hkind ih
  | @skip gap rest p tokens blanks more ih =>
    rwa [Position.line_advance (newline_notMem_blanks blanks)] at ih

variable {line : Int} {ts us : List Token}

theorem Lined.of_prefix (h : Lined line ts) (hus : us <+: ts) : Lined line us := by
  induction h generalizing us with
  | nil =>
    rw [List.prefix_nil.1 hus]
    exact .nil
  | token place inner _ ih =>
    rcases List.prefix_cons_iff.1 hus with rfl | ⟨vs, rfl, hvs⟩
    · exact .nil
    · exact .token place inner (ih hvs)
  | newline place last _ ih =>
    rcases List.prefix_cons_iff.1 hus with rfl | ⟨vs, rfl, hvs⟩
    · exact .nil
    · exact .newline place last (ih hvs)

theorem Lined.skipNewlines (h : Lined line ts) : ∃ line', Lined line' (Tree.skipNewlines ts) := by
  induction h with
  | nil => exact ⟨0, .nil⟩
  | @token line t ts place inner rest ih =>
    rw [Tree.skipNewlines_of_ne inner]
    exact ⟨line, .token place inner rest⟩
  | @newline line line' t ts place last rest ih =>
    rw [Tree.skipNewlines_of_newline last]
    exact ih

theorem Lined.abreast {S : Position → Prop} (h : Lined line ts) (hts : ∀ t ∈ ts, S t.position) :
    Abreast (fun p _ => S p ∧ p.line = line)
      (fun us us' => us = us' ∧ (∃ line', Lined line' us) ∧ ∀ t ∈ us, S t.position) ts ts := by
  induction h with
  | nil => exact .nil
  | token place inner _ ih =>
    obtain ⟨ht, hts⟩ := List.forall_mem_cons.1 hts
    exact .token ⟨rfl, rfl, ht, place⟩ inner (ih hts)
  | newline place last rest =>
    obtain ⟨ht, hts⟩ := List.forall_mem_cons.1 hts
    exact .newline ⟨rfl, rfl, ht, place⟩ last ⟨rfl, ⟨_, rest⟩, hts⟩

end Token

/-! ### Trees of a line -/

namespace Tree

def All (S : Position → Prop) (t : Tree) : Prop := Like (fun p _ => S p) t t

def Placed (S : Position → Prop) (s : Tree) : Prop := ∃ line, s.All fun p => S p ∧ p.line = line

theorem Paired.forall_mem {V : Tree → Tree → Prop} {ss : List Tree} (h : Paired V ss ss) :
    ∀ s ∈ ss, V s s := by
  induction ss with
  | nil => exact List.forall_mem_nil _
  | cons s ss ih =>
    cases h with
    | cons first others => exact List.forall_mem_cons.2 ⟨first, ih others⟩

theorem exists_stopOf {tokens : List Token} {t : Token} (ht : t ∈ tokens)
    (hend : t.kind = .endOfFile) : ∃ t' ∈ tokens, t'.position = stopOf tokens := by
  unfold stopOf
  split
  · rename_i t' hfind
    exact ⟨t', List.mem_of_find?_eq_some hfind, rfl⟩
  · rename_i hnone
    exact absurd hend (by simpa using List.find?_eq_none.1 hnone t ht)

/-- What the parser makes of tokens stands at places with a property, if the tokens do. -/
theorem concur_of_lined {S : Position → Prop} {line : Int} {tokens : List Token}
    (h : Token.Lined line tokens) (htokens : ∀ t ∈ tokens, S t.position) {t : Token}
    (ht : t ∈ tokens) (hend : t.kind = .endOfFile) :
    Concur (fun p _ => S p) (fun program program' => program.statements ≠ [] ∧
      Paired (fun s s' => ∃ line, Like (fun p _ => S p ∧ p.line = line) s s')
        program.statements program'.statements) (parse tokens) (parse tokens) := by
  have hstop : S (stopOf tokens) := by
    obtain ⟨t', ht', hposition⟩ := exists_stopOf ht hend
    exact hposition ▸ htokens t' ht'
  have hleads :
      Leads (fun us us' => us = us' ∧ (∃ line, Token.Lined line us) ∧ ∀ t ∈ us, S t.position)
        (fun p _ => S p) (fun s s' => ∃ line, Like (fun p _ => S p ∧ p.line = line) s s')
        (stopOf tokens) (stopOf tokens) := by
    rintro us _ ⟨rfl, ⟨line, hlined⟩, hus⟩
    obtain ⟨line', hlined'⟩ := hlined.skipNewlines
    have hskipped : ∀ t ∈ skipNewlines us, S t.position :=
      fun t ht => hus t (List.dropWhile_subset _ ht)
    exact ⟨_, ⟨fun h => h.1, hstop⟩, fun h => ⟨line', h⟩, hlined'.abreast hskipped⟩
  have hbody : bodyOf tokens <+: tokens := List.takeWhile_prefix _
  exact concur_parse hleads hstop ⟨rfl, ⟨line, h.of_prefix hbody⟩, fun t ht =>
    htokens t (hbody.subset ht)⟩

end Tree

end Brushwork
