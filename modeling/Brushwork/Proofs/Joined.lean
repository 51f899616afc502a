import Brushwork.Proofs.JsonValue
import Brushwork.Proofs.Layout
import Brushwork.Proofs.Walk

/-!
# Where surrogates stand alone

In a value that has been read, in the literals of a program and in the variables of a machine, no
first half of a pair stands in front of its second half. Reading joins such halves, a program is
made of characters, and a statement only hands on what it finds. So no text of a machine is changed
by writing and reading it.
-/

namespace Brushwork

namespace Json

mutual

/-- No halves of a pair stand side by side in any text or name of a value. -/
def Joined : Json → Prop
  | .text t => t.Joined
  | .array items => AreJoined items
  | .object members => HaveJoined members
  | _ => True

def AreJoined : List Json → Prop
  | [] => True
  | j :: js => Joined j ∧ AreJoined js

def HaveJoined : List (Text × Json) → Prop
  | [] => True
  | (name, j) :: ms => (name.Joined ∧ Joined j) ∧ HaveJoined ms

end

theorem areJoined_iff {js : List Json} : AreJoined js ↔ ∀ j ∈ js, j.Joined := by
  induction js with
  | nil => simp [AreJoined]
  | cons j js ih => simp [AreJoined, ih]

theorem haveJoined_iff {ms : List (Text × Json)} :
    HaveJoined ms ↔ ∀ m ∈ ms, m.1.Joined ∧ m.2.Joined := by
  induction ms with
  | nil => simp [HaveJoined]
  | cons m ms ih => simp [HaveJoined, ih]

theorem HaveJoined.put {ms : List (Text × Json)} (h : HaveJoined ms) {name : Text} {j : Json}
    (hname : name.Joined) (hj : j.Joined) : HaveJoined (Table.put name j ms) := by
  induction ms with
  | nil => exact ⟨⟨hname, hj⟩, trivial⟩
  | cons m ms ih =>
    rw [Table.put]
    split
    · exact ⟨⟨hname, hj⟩, h.2⟩
    · exact ⟨h.1, ih h.2⟩

theorem joined_unsigned {negative : Bool} {cs rest : List Char} {j : Json}
    (h : unsigned negative cs = .ok (j, rest)) : j.Joined := by
  unfold unsigned at h
  split at h
  · cases h
  · dsimp only at h
    split at h
    · split at h
      · cases h
      · cases h
        trivial
    · cases h
      trivial

theorem joined_scalar {cs rest : List Char} {j : Json} (h : scalar cs = .ok (j, rest)) :
    j.Joined := by
  unfold scalar at h
  split at h
  · rename_i w hw
    cases h
    have hmem := List.mem_of_find?_eq_some hw
    simp only [words, List.mem_cons, List.not_mem_nil, or_false] at hmem
    rcases hmem with rfl | rfl | rfl | rfl | rfl | rfl <;> trivial
  · unfold number at h
    split at h
    · exact joined_unsigned h
    · exact joined_unsigned h

/-- What is read from a text has its surrogates alone, whatever it is read as. -/
structure ReadsJoined (cs : List Char) : Prop where
  value : ∀ {j : Json} {rest : List Char}, Gives (readValue cs) j rest → j.Joined
  members :
    ∀ {seen all : List (Text × Json)} {rest : List Char}, Gives (readMembers seen cs) all rest →
    HaveJoined seen → HaveJoined all
  items : ∀ {before all : List Json} {rest : List Char}, Gives (readItems before cs) all rest →
    AreJoined before → AreJoined all

section

variable {cs rest : List Char} (ih : ∀ cs' : List Char, cs'.length < cs.length → ReadsJoined cs')

include ih

theorem joined_readValue {j : Json} (h : Gives (readValue cs) j rest) : j.Joined := by
  obtain ⟨shorter, h⟩ := h
  rw [readValue.eq_def] at h
  split at h
  · cases h
  · split at h
    · cases h
    · rename_i heq
      cases h
      exact joined_readText heq (pending_start _)
  · rename_i more
    have hlt : (skipSpace more).length < ('\x7b' :: more).length :=
      Nat.lt_succ_of_le (length_skipSpace_le more)
    split at h
    · cases h
      trivial
    · split at h
      · cases h
      · rename_i all rest' shorter' hmembers
        cases h
        exact (ih _ hlt).members ⟨shorter', hmembers⟩ trivial
  · rename_i more
    have hlt : (skipSpace more).length < ('[' :: more).length :=
      Nat.lt_succ_of_le (length_skipSpace_le more)
    split at h
    · cases h
      trivial
    · split at h
      · cases h
      · rename_i all rest' shorter' hitems
        cases h
        exact (ih _ hlt).items ⟨shorter', hitems⟩ trivial
  · split at h
    · rename_i heq
      split at h
      · cases h
        exact joined_scalar heq
      · cases h
    · cases h

theorem joined_readMembers {seen all : List (Text × Json)}
    (h : Gives (readMembers seen cs) all rest) (hseen : HaveJoined seen) : HaveJoined all := by
  obtain ⟨shorter, h⟩ := h
  rw [readMembers.eq_def] at h
  split at h
  · rename_i more
    split at h
    · cases h
    · rename_i name r₁ hname
      have h₁ := readText_shorter hname
      have h₂ := length_skipSpace_le r₁
      split at h
      · rename_i r₂ hcolon
        have h₃ := length_skipSpace_le r₂
        rw [hcolon, List.length_cons] at h₂
        split at h
        · cases h
        · rename_i v r₃ h₄ hvalue
          have h₅ := length_skipSpace_le r₃
          have hv := (ih _ (by rw [List.length_cons]; omega)).value ⟨h₄, hvalue⟩
          have hput := hseen.put (joined_readText hname (pending_start _)) hv
          dsimp only at h
          split at h
          · cases h
            exact hput
          · rename_i r₄ hcomma
            have h₆ := length_skipSpace_le r₄
            rw [hcomma, List.length_cons] at h₅
            split at h
            · cases h
            · rename_i all' rest' h₇ hmembers
              cases h
              exact (ih _ (by rw [List.length_cons]; omega)).members ⟨h₇, hmembers⟩ hput
          · cases h
      · cases h
  · cases h

theorem joined_readItems {before all : List Json} (h : Gives (readItems before cs) all rest)
    (hbefore : AreJoined before) : AreJoined all := by
  obtain ⟨shorter, h⟩ := h
  rw [readItems.eq_def] at h
  split at h
  · cases h
  · rename_i v r₁ h₁ hvalue
    have h₂ := length_skipSpace_le r₁
    have hv := joined_readValue ih ⟨h₁, hvalue⟩
    split at h
    · cases h
      rw [areJoined_iff] at hbefore ⊢
      intro j hj
      rcases List.mem_cons.1 (List.mem_reverse.1 hj) with rfl | hj
      · exact hv
      · exact hbefore j hj
    · rename_i r₂ hcomma
      have h₃ := length_skipSpace_le r₂
      rw [hcomma, List.length_cons] at h₂
      split at h
      · cases h
      · rename_i all' rest' h₄ hitems
        cases h
        exact (ih _ (by omega)).items ⟨h₄, hitems⟩ ⟨hv, hbefore⟩
    · cases h

end

theorem readsJoined (cs : List Char) : ReadsJoined cs := by
  have ih : ∀ cs' : List Char, cs'.length < cs.length → ReadsJoined cs' :=
    fun cs' _ => readsJoined cs'
  exact ⟨joined_readValue ih, joined_readMembers ih, joined_readItems ih⟩
termination_by cs.length

theorem joined_read {s : String} {j : Json} (h : read s = .ok j) : j.Joined := by
  unfold read at h
  split at h
  · rename_i v hv
    cases h
    unfold readChars at hv
    split at hv
    · cases hv
    · split at hv
      · cases hv
      · rename_i v rest shorter hvalue
        split at hv
        · cases hv
          exact (readsJoined _).value ⟨shorter, hvalue⟩
        · cases hv
  · cases h

end Json

def Value.Joined : Value → Prop
  | .text t => t.Joined
  | _ => True

namespace Grammar

theorem Expression.joined :
    ∀ {level : Tree.Level} {us : List Token} {a : Tree}, Expression level us a →
    ∀ {v : Value} {p : Position}, a = .literal v p → v.Joined
  | _, _, _, .loosen _ expression, _, _, h => expression.joined h
  | _, _, _, .paren _ inner _, _, _, h => inner.joined h
  | _, _, _, .boolean _, _, _, h => by
    cases h
    trivial
  | _, _, _, .number _ _, _, _, h => by
    cases h
    trivial
  | _, _, _, .string _, _, _, h => by
    cases h
    exact Text.joined_ofString _
  | _, _, _, .join .., _, _, h => by cases h
  | _, _, _, .sign .., _, _, h => by cases h
  | _, _, _, .variable _, _, _, h => by cases h
  | _, _, _, .call .., _, _, h => by cases h

theorem Statement.joined {us : List Token} {name : String} {v : Value} {p q : Position}
    (h : Statement us (.assign name (.literal v p) q)) : v.Joined := by
  cases h with
  | assign _ _ value => exact value.joined rfl

theorem Statements.exists_statement {us : List Token} {ss : List Tree} (h : Statements us ss) :
    ∀ s ∈ ss, ∃ vs, Statement vs s := by
  induction h with
  | last statement => simpa using ⟨_, statement⟩
  | more statement _ _ _ ih =>
    intro s hs
    rcases List.mem_cons.1 hs with rfl | hs
    · exact ⟨_, statement⟩
    · exact ih s hs

end Grammar

def Program.Joined (program : Program) : Prop :=
  ∀ {name : String} {v : Value} {p q : Position}, .assign name
    (.literal v p) q ∈ program.statements → v.Joined

theorem Source.joined_of_compile {source : String} {program : Program}
    (h : compile source = .ok program) : program.Joined := by
  obtain ⟨tokens, htokens, hparse⟩ := compile_eq_ok_iff.1 h
  have hfollows := Tree.follows_parse tokens fun t ht =>
    plain_of_tokenize htokens t (List.takeWhile_subset _ ht)
  rw [hparse] at hfollows
  obtain ⟨us, -, hderives, -⟩ := hfollows
  intro name v p q hmem
  cases hderives with
  | program _ statements =>
    obtain ⟨vs, hstatement⟩ := statements.exists_statement _ hmem
    exact hstatement.joined

namespace Machine

theorem joined_query {m : Machine} {b : Builtin} {p : Position} {vs : List Value} {v : Value}
    (h : query m b p vs = .ok v) : v.Joined := by
  unfold query at h
  split at h
  · cases h
    trivial
  · cases h
    trivial
  · cases h
    trivial
  · obtain ⟨text, -, h⟩ := bind_eq_ok_iff.1 h
    obtain ⟨ns, -, h⟩ := bind_eq_ok_iff.1 h
    split at h
    · cases h
      trivial
    · cases h
  · obtain ⟨text, -, h⟩ := bind_eq_ok_iff.1 h
    cases h
    trivial
  · obtain ⟨n, -, h⟩ := bind_eq_ok_iff.1 h
    cases h
    trivial
  · obtain ⟨text, -, h⟩ := bind_eq_ok_iff.1 h
    cases h
    trivial
  · cases h

theorem joined_evalBinary {symbol : String} {a b v : Value} {p : Position}
    (h : evalBinary symbol a b p = .ok v) : v.Joined := by
  unfold evalBinary at h
  split at h
  · split at h
    · split at h <;> cases h <;> trivial
    · cases h
  · split at h
    · cases h
    · split at h
      · cases h
        trivial
      · cases h
  · simp only [bind_eq_ok_iff] at h
    obtain ⟨_, -, _, -, _, -, h⟩ := h
    cases h
    trivial
  · simp only [bind_eq_ok_iff] at h
    obtain ⟨_, -, _, -, h⟩ := h
    cases h

def Joined (m : Machine) : Prop := ∀ e ∈ m.state.values.entries, e.1.Joined ∧ e.2.Joined

theorem joined_eval {m : Machine} (hm : m.Joined) {t : Tree} {v : Value} (h : eval m t = .ok v)
    (ht : ∀ {w : Value} {p : Position}, t = .literal w p → w.Joined) : v.Joined := by
  cases t with
  | literal w p =>
    cases h
    exact ht rfl
  | «variable» name p =>
    rw [eval, State.valueOf] at h
    split at h
    · rename_i w hw
      cases h
      obtain ⟨before, after, hentries, -⟩ := List.lookup_eq_some_iff.1 hw
      exact (hm _ (hentries ▸ List.mem_append_right before List.mem_cons_self)).2
    · cases h
  | unary op operand p =>
    simp only [eval, bind_eq_ok_iff] at h
    obtain ⟨_, -, _, -, h⟩ := h
    cases h
    trivial
  | binary left op right p =>
    simp only [eval, bind_eq_ok_iff] at h
    obtain ⟨_, -, _, -, h⟩ := h
    exact joined_evalBinary h
  | call name args p =>
    rw [eval] at h
    split at h
    · cases h
    · simp only [bind_eq_ok_iff] at h
      obtain ⟨_, -, _, -, h⟩ := h
      exact joined_query h
  | _ => cases h

theorem mem_put {κ α : Type} [DecidableEq κ] {name : κ} {a : α} {es : List (κ × α)} {e : κ × α}
    (h : e ∈ Table.put name a es) : e = (name, a) ∨ e ∈ es := by
  induction es with
  | nil => exact Or.inl (List.mem_singleton.1 h)
  | cons e' es ih =>
    rw [Table.put] at h
    split at h
    · rcases List.mem_cons.1 h with h | h
      · exact Or.inl h
      · exact Or.inr (List.mem_cons_of_mem _ h)
    · rcases List.mem_cons.1 h with h | h
      · exact Or.inr (h ▸ List.mem_cons_self)
      · exact (ih h).imp_right (List.mem_cons_of_mem _)

theorem Effect.joined {s : Tree} {m m' : Machine} {target : Option Int} (h : Effect s m target m')
    (hm : m.Joined)
    (hs : ∀ {name : String} {v : Value} {p q : Position},
      s = .assign name (.literal v p) q → v.Joined) :
    m'.Joined := by
  cases h with
  | assign value =>
    intro e he
    rcases mem_put he with rfl | he
    · exact ⟨Text.joined_ofString _, joined_eval hm value fun ht => hs (by rw [ht])⟩
    · exact hm e he
  | spawn | instruct | query | pass | jump | label => exact hm

theorem lasting_joined {program : Program} (h : program.Joined) : Lasting program Joined where
  effect := by
    intro s m target m' hs heffect hm
    refine heffect.joined hm ?_
    rintro name v p q rfl
    exact h hs
  labelled _ hm := hm
  noted _ _ hm := hm

namespace State

theorem joined_setVariables {s s' : State} {ms : List (Text × Json)}
    (h : s.setVariables ms = .ok s') (hms : Json.HaveJoined ms)
    (hs : s.values.Distinct ∧ ∀ e ∈ s.values.entries, e.1.Joined ∧ e.2.Joined) :
    s'.values.Distinct ∧ ∀ e ∈ s'.values.entries, e.1.Joined ∧ e.2.Joined := by
  induction ms generalizing s with
  | nil =>
    cases h
    exact hs
  | cons m ms ih =>
    obtain ⟨name, j⟩ := m
    obtain ⟨v, hv, h⟩ := bind_eq_ok_iff.1 h
    refine ih h hms.2 ⟨hs.1.insert name v, fun e he => ?_⟩
    rcases mem_put he with rfl | he
    · refine ⟨hms.1.1, ?_⟩
      cases j with
      | text t =>
        cases hv
        exact hms.1.2
      | int n | bool b =>
        cases hv
        trivial
      | null | real | array | object => cases hv
    · exact hs.2 e he

theorem joined_ofJson {j : Json} {s : State} (h : ofJson j = .ok s) (hj : j.Joined) :
    s.values.Distinct ∧ ∀ e ∈ s.values.entries, e.1.Joined ∧ e.2.Joined := by
  have hempty : (Table.empty : Table Text Value).Distinct ∧
      ∀ e ∈ (Table.empty : Table Text Value).entries, e.1.Joined ∧ e.2.Joined :=
    ⟨Table.distinct_empty, fun e he => nomatch he⟩
  obtain ⟨ms, hms, hread⟩ := bind_eq_ok_iff.1 h
  cases j with
  | object ms' =>
    cases hms
    obtain ⟨x, -, h⟩ := bind_eq_ok_iff.1 hread
    obtain ⟨y, -, h⟩ := bind_eq_ok_iff.1 h
    obtain ⟨size, -, h⟩ := bind_eq_ok_iff.1 h
    obtain ⟨lastLine, -, h⟩ := bind_eq_ok_iff.1 h
    obtain ⟨pointer, -, h⟩ := bind_eq_ok_iff.1 h
    split at h
    · cases h
      exact hempty
    · rename_i vs hvs
      obtain ⟨before, after, hlist, -⟩ := List.lookup_eq_some_iff.1 hvs
      have hobject :=
        Json.haveJoined_iff.1 hj _ (hlist ▸ List.mem_append_right before List.mem_cons_self)
      exact joined_setVariables h hobject.2 hempty
    · cases h
  | null | bool | int | real | text | array => cases hms

end State

end Machine

end Brushwork
