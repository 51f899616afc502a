import Mathlib
import Brushwork.Proofs.Storage

/-!
# Writers at the same time

A file is replaced in steps: directories are made, a temporary file is created and filled piece by
piece, and then it takes the place of the file. Any number of writers take such steps in any order,
and each of them may stop for good before it is done, whether a step of it was refused or not. Only
the last step of a writer touches a target, so at any time a target has all the data of the writer
that replaced it last, or what it had at first.
-/

namespace Brushwork.Disk

/-- A file to be replaced: its path, the mark of the temporary file, and the new content. -/
structure Writer where
  path : Path
  mark : String
  data : Bytes

namespace Writer

def temporary (w : Writer) : Path := Disk.temporary w.path w.mark

def target (w : Writer) : Path := place w.path

def draft (w : Writer) : Path := place w.temporary

end Writer

/-- How far a writer has come. While it fills its temporary file, some bytes are left to be
written. -/
inductive Stage where
  | waiting
  | prepared
  | filling (left : Bytes)
  | done
  | stopped
deriving DecidableEq

/-- The steps of a writer before the last one, and the ways to stop. Directories that were made
before one of them was refused stay. -/
inductive Writer.Works (w : Writer) : Stage → Disk → Stage → Disk → Prop
  | prepare {d d' : Disk} (made : makeDirectories w.path.parent d = .ok () d') :
    Works w .waiting d .prepared d'
  | refuse {d d' : Disk} {f : Fault} (refused : makeDirectories w.path.parent d = .error f d') :
    Works w .waiting d .stopped d'
  | create {d d' : Disk} (named : w.path.names ≠ []) (created : d.create w.temporary = .ok d') :
    Works w .prepared d (.filling w.data) d'
  | write {d d' : Disk} {left piece rest : Bytes} (cut : left = piece ++ rest)
      (written : d.append w.temporary piece = .ok d') : Works w (.filling left) d (.filling rest) d'
  | stop {s : Stage} {d : Disk} (unfinished : s ≠ .done) : Works w s d .stopped d

/-- A disk with writers at work on it, and those of them that have replaced their file, the latest
first. -/
structure Scene (ι : Type) where
  disk : Disk
  stage : ι → Stage
  replaced : List ι

namespace Scene

variable {ι : Type}

def start (d : Disk) : Scene ι := ⟨d, fun _ => .waiting, []⟩

variable [DecidableEq ι]

inductive Step (writers : ι → Writer) : Scene ι → Scene ι → Prop
  | work {c : Scene ι} {i : ι} {s : Stage} {d : Disk}
      (works : (writers i).Works (c.stage i) c.disk s d) :
    Step writers c ⟨d, Function.update c.stage i s, c.replaced⟩
  | replace {c : Scene ι} {i : ι} {d : Disk} (filled : c.stage i = .filling #[])
      (moved : c.disk.move (writers i).temporary (writers i).path = .ok d) :
    Step writers c ⟨d, Function.update c.stage i .done, i :: c.replaced⟩

def Reachable (writers : ι → Writer) (d : Disk) : Scene ι → Prop :=
  Relation.ReflTransGen (Step writers) (start d)

/-- What belongs at a target: the data of the writer that replaced it last, or what was there at
first. -/
def content (writers : ι → Writer) (d : Disk) (c : Scene ι) (q : Path) : Option Entry :=
  (c.replaced.find? fun i => (writers i).target = q).elim (d.get? q) fun i =>
    some (.file (writers i).data)

end Scene

/-- Every temporary file has a place of its own, which is no target, and no target is a directory
that some path leads through. -/
structure Apart {ι : Type} (writers : ι → Writer) : Prop where
  drafts : ∀ {i j : ι}, (writers i).draft = (writers j).draft → i = j
  targets : ∀ i j : ι, (writers i).draft ≠ (writers j).target
  ancestors : ∀ i j : ι, ¬ Above (writers i).path (writers j).target

/-- What a temporary file holds at a stage of its writer. -/
def Writer.DraftAt (w : Writer) (d : Disk) : Stage → Prop
  | .filling left => ∃ written, d.get? w.draft = some (.file written) ∧ written ++ left = w.data
  | .done => ∀ bs, d.get? w.draft ≠ some (.file bs)
  | _ => True

/-- The stage of a writer and the disk when a whole call has replaced its file, or was refused at
some step. -/
def Writer.Replaces (w : Writer) (d : Disk) (s : Stage) (d' : Disk) : Prop :=
  (replace w.mark w.path w.data d = .ok () d' ∧ s = .done) ∨
    ((∃ f, replace w.mark w.path w.data d = .error f d') ∧ s ≠ .done)

namespace Writer

variable {w : Writer} {s s' : Stage} {d d' : Disk}

theorem DraftAt.congr (h : w.DraftAt d s)
    (hget : ∀ bs, d.get? w.draft = some (.file bs) ↔ d'.get? w.draft = some (.file bs)) :
    w.DraftAt d' s := by
  cases s with
  | filling left =>
    obtain ⟨written, hfile, hdata⟩ := h
    exact ⟨written, (hget written).1 hfile, hdata⟩
  | done => exact fun bs hfile => h bs ((hget bs).2 hfile)
  | waiting | prepared | stopped => trivial

theorem Works.ne_done (h : w.Works s d s' d') : s ≠ .done ∧ s' ≠ .done := by
  cases h with
  | stop unfinished => exact ⟨unfinished, nofun⟩
  | prepare | refuse | create | write => exact ⟨nofun, nofun⟩

theorem Replaces.of_error {f : Fault} (h : replace w.mark w.path w.data d = .error f d')
    (hs : s = s') (hs' : s' ≠ .done) : w.Replaces d s d' := Or.inr ⟨⟨f, h⟩, hs ▸ hs'⟩

/-- A step before the last one adds directories on the way to the target, or it writes to the
temporary file. -/
theorem Works.cases (h : w.Works s d s' d') (hs : w.DraftAt d s) :
    (Grown (Above w.path) d d' ∧ w.DraftAt d' s') ∨
      ∃ written left, s' = .filling left ∧ written ++ left = w.data ∧
        ∀ q, d'.get? q = if q = w.draft then some (.file written) else d.get? q := by
  cases h with
  | prepare made =>
    have hgrown := grown_makeDirectories_parent w.path d
    rw [Work.disk_of_ok made] at hgrown
    exact Or.inl ⟨hgrown, trivial⟩
  | refuse refused =>
    have hgrown := grown_makeDirectories_parent w.path d
    rw [Work.disk_of_error refused] at hgrown
    exact Or.inl ⟨hgrown, trivial⟩
  | stop => exact Or.inl ⟨Grown.refl _ d, trivial⟩
  | create named created =>
    obtain ⟨-, hfree, rfl⟩ := create_eq_ok_iff.1 created
    exact Or.inr ⟨#[], w.data, rfl, Array.empty_append, get?_put (isOutside_of_get? hfree) d _⟩
  | @write _ _ left piece rest cut written =>
    obtain ⟨-, old, hold, rfl⟩ := append_eq_ok_iff.1 written
    obtain ⟨before, hbefore, hdata⟩ := hs
    obtain rfl : before = old := Entry.file.inj (Option.some.inj (hbefore.symm.trans hold))
    refine Or.inr
      ⟨before ++ piece, rest, rfl, ?_, get?_put (isOutside_of_get? (by rw [hold]; nofun)) d _⟩
    rw [Array.append_assoc, ← cut, hdata]

end Writer

namespace Scene

section

variable {ι : Type} {writers : ι → Writer} {d₀ : Disk} {c c' : Scene ι}

/-- What holds at any time of the writers' work. -/
structure Sound (writers : ι → Writer) (d₀ : Disk) (c : Scene ι) : Prop where
  target : ∀ i, c.disk.get? (writers i).target = c.content writers d₀ (writers i).target
  draft : ∀ i, (writers i).DraftAt c.disk (c.stage i)
  replaced : ∀ i, i ∈ c.replaced ↔ c.stage i = .done
  other : ∀ q, (∀ i, q ≠ (writers i).target ∧ q ≠ (writers i).draft) →
    c.disk.get? q = d₀.get? q ∨
      (d₀.get? q = none ∧ c.disk.get? q = some .directory ∧ ∃ i, Above (writers i).path q)

theorem sound_start (writers : ι → Writer) (d : Disk) : Sound writers d (start d) where
  target _ := rfl
  draft _ := trivial
  replaced _ := ⟨nofun, nofun⟩
  other _ _ := Or.inl rfl

variable [DecidableEq ι] {i : ι} {s : Stage} {d : Disk}

theorem forall_update {P : ι → Stage → Prop} (hi : P i s) (hother : ∀ j, j ≠ i → P j (c.stage j))
    (j : ι) : P j (Function.update c.stage i s j) := by
  by_cases hj : j = i
  · subst hj
    rw [Function.update_self]
    exact hi
  · rw [Function.update_of_ne hj]
    exact hother j hj

theorem Sound.work (h : Sound writers d₀ c) (happart : Apart writers)
    (hworks : (writers i).Works (c.stage i) c.disk s d) :
    Sound writers d₀ ⟨d, Function.update c.stage i s, c.replaced⟩ := by
  have hreplaced : ∀ j, j ∈ c.replaced ↔ Function.update c.stage i s j = .done := by
    apply forall_update (P := fun j t => j ∈ c.replaced ↔ t = .done)
    · obtain ⟨hbefore, hafter⟩ := hworks.ne_done
      exact ⟨fun hi => absurd ((h.replaced i).1 hi) hbefore, fun hi => absurd hi hafter⟩
    · exact fun j _ => h.replaced j
  rcases hworks.cases (h.draft i) with ⟨hgrown, hdraft⟩ | ⟨written, left, rfl, hdata, hget⟩
  · refine ⟨fun j => ?_, ?_, hreplaced, fun q hq => ?_⟩
    · exact (hgrown.get?_eq_of_not (happart.ancestors i j)).trans (h.target j)
    · apply forall_update (P := fun j t => (writers j).DraftAt d t) hdraft
      intro j _
      exact (h.draft j).congr fun bs => hgrown.file_iff
    · rcases hgrown q with hsame | ⟨hnone, hdir, habove⟩
      · change d.get? q = _ ∨ _
        rw [hsame]
        exact h.other q hq
      · rcases h.other q hq with hsame | ⟨-, hdir', -⟩
        · exact Or.inr ⟨hsame.symm.trans hnone, hdir, i, habove⟩
        · rw [hdir'] at hnone
          cases hnone
  · refine ⟨fun j => ?_, ?_, hreplaced, fun q hq => ?_⟩
    · exact ((hget _).trans (if_neg (happart.targets i j).symm)).trans (h.target j)
    · apply forall_update (P := fun j t => (writers j).DraftAt d t)
      · exact ⟨written, (hget _).trans (if_pos rfl), hdata⟩
      · intro j hj
        have hsame := (hget (writers j).draft).trans (if_neg fun heq => hj (happart.drafts heq))
        exact (h.draft j).congr fun bs => by rw [hsame]
    · have hsame := (hget q).trans (if_neg (hq i).2)
      change d.get? q = _ ∨ _
      rw [hsame]
      exact h.other q hq

theorem content_replaced (q : Path) :
    content writers d₀ ⟨d, Function.update c.stage i s, i :: c.replaced⟩ q =
    if q = (writers i).target then some (.file (writers i).data) else c.content writers d₀ q := by
  unfold content
  by_cases hq : q = (writers i).target
  · rw [if_pos hq, List.find?_cons_of_pos (by simp [hq])]
    rfl
  · rw [if_neg hq, List.find?_cons_of_neg (by simpa using Ne.symm hq)]

/-- The last step of a writer puts all its data in place of the target and takes its temporary file
away. -/
theorem Sound.replace (h : Sound writers d₀ c) (happart : Apart writers)
    (hfilled : c.stage i = .filling #[])
    (hmoved : c.disk.move (writers i).temporary (writers i).path = .ok d) :
    Sound writers d₀ ⟨d, Function.update c.stage i .done, i :: c.replaced⟩ := by
  obtain ⟨bs, hbs, hget⟩ : ∃ bs, c.disk.get? (writers i).draft = some (.file bs) ∧
      ∀ q, d.get? q = if q = (writers i).target then some (.file bs)
        else if q = (writers i).draft then none else c.disk.get? q := get?_of_move hmoved
  have hdata : bs = (writers i).data := by
    have hdraft := h.draft i
    rw [hfilled] at hdraft
    obtain ⟨written, hwritten, hall⟩ := hdraft
    obtain rfl : written = bs := Entry.file.inj (Option.some.inj (hwritten.symm.trans hbs))
    exact Array.append_empty.symm.trans hall
  subst hdata
  have hother {q : Path} (hq : q ≠ (writers i).target) (hq' : q ≠ (writers i).draft) :
      d.get? q = c.disk.get? q := by
    rw [hget, if_neg hq, if_neg hq']
  refine ⟨fun j => ?_, ?_, ?_, fun q hq => ?_⟩
  · rw [content_replaced]
    by_cases hj : (writers j).target = (writers i).target
    · exact (hget _).trans (by rw [if_pos hj, if_pos hj])
    · rw [if_neg hj, ← h.target j]
      exact hother hj (happart.targets i j).symm
  · apply forall_update (P := fun j t => (writers j).DraftAt d t)
    · intro bs hfile
      rw [hget, if_neg (happart.targets i i), if_pos rfl] at hfile
      cases hfile
    · intro j hj
      have hsame := hother (happart.targets j i) fun heq => hj (happart.drafts heq)
      exact (h.draft j).congr fun bs => by rw [hsame]
  · apply forall_update (P := fun j t => j ∈ i :: c.replaced ↔ t = .done)
    · exact ⟨fun _ => rfl, fun _ => List.mem_cons_self⟩
    · intro j hj
      rw [List.mem_cons, or_iff_right hj]
      exact h.replaced j
  · change d.get? q = _ ∨ _
    rw [hother (hq i).1 (hq i).2]
    exact h.other q hq

theorem sound_of_reachable (happart : Apart writers) (h : Reachable writers d₀ c) :
    Sound writers d₀ c := by
  induction h with
  | refl => exact sound_start writers d₀
  | tail _ hstep ih =>
    cases hstep with
    | work works => exact ih.work happart works
    | replace filled moved => exact ih.replace happart filled moved

theorem reachable_work {s' : Stage} (hc : Reachable writers d₀ c) (hs : c.stage i = s)
    (h : (writers i).Works s c.disk s' d) :
    ∃ c', Reachable writers d₀ c' ∧ c'.stage i = s' ∧ c'.disk = d :=
  ⟨⟨d, Function.update c.stage i s', c.replaced⟩, hc.tail (.work (hs ▸ h)),
    Function.update_self .., rfl⟩

/-- At any time a writer that has not begun may replace its file with no one in between: its steps
do what the whole call does, up to the one that is refused. -/
theorem reachable_replace (hc : Reachable writers d₀ c) (hi : c.stage i = .waiting) :
    ∃ c', Reachable writers d₀ c' ∧ (writers i).Replaces c.disk (c'.stage i) c'.disk := by
  cases hmake : makeDirectories (writers i).path.parent c.disk with
  | error f d₁ =>
    obtain ⟨c', hreach, hstage, rfl⟩ := reachable_work hc hi (.refuse hmake)
    exact ⟨c', hreach, .of_error (Work.bind_of_error hmake) hstage (by decide)⟩
  | ok _ d₁ =>
    obtain ⟨c₁, hreach₁, hstage₁, rfl⟩ := reachable_work hc hi (.prepare hmake)
    by_cases hnames : (writers i).path.names = []
    · refine ⟨c₁, hreach₁, .of_error (f := ⟨.nameless, (writers i).path⟩) ?_ hstage₁ (by decide)⟩
      rw [replace_of_nameless hnames, Work.bind_of_ok hmake]
      rfl
    · have hreplace := replace_of_named hnames (writers i).mark (writers i).data
      cases hcreate : c₁.disk.create (writers i).temporary with
      | error f =>
        refine ⟨c₁, hreach₁, .of_error (f := f) ?_ hstage₁ (by decide)⟩
        rw [hreplace, Work.bind_of_ok hmake, Work.bind_of_error (Work.perform_of_error hcreate)]
      | ok d₂ =>
        obtain ⟨c₂, hreach₂, hstage₂, rfl⟩ :=
          reachable_work hreach₁ hstage₁ (.create hnames hcreate)
        cases happend : c₂.disk.append (writers i).temporary (writers i).data with
        | error f =>
          refine ⟨c₂, hreach₂, .of_error (f := f) ?_ hstage₂ (by simp)⟩
          rw [hreplace, Work.bind_of_ok hmake, Work.bind_of_ok (Work.perform_of_ok hcreate),
            Work.bind_of_error (Work.perform_of_error happend)]
        | ok d₃ =>
          have hwhole : (writers i).data = (writers i).data ++ #[] := Array.append_empty.symm
          obtain ⟨c₃, hreach₃, hstage₃, rfl⟩ :=
            reachable_work hreach₂ hstage₂ (.write hwhole happend)
          have hlast : Disk.replace (writers i).mark (writers i).path (writers i).data c.disk =
              perform (fun d => d.move (writers i).temporary (writers i).path) c₃.disk := by
            rw [hreplace, Work.bind_of_ok hmake, Work.bind_of_ok (Work.perform_of_ok hcreate),
              Work.bind_of_ok (Work.perform_of_ok happend)]
            rfl
          cases hmove : c₃.disk.move (writers i).temporary (writers i).path with
          | error f =>
            exact ⟨c₃, hreach₃, .of_error (hlast.trans (Work.perform_of_error hmove))
              hstage₃ (by simp)⟩
          | ok d₄ =>
            refine ⟨_, hreach₃.tail (.replace hstage₃ hmove), Or.inl ⟨?_, Function.update_self ..⟩⟩
            exact hlast.trans (Work.perform_of_ok hmove)

end

/-- Whatever steps have been taken in whatever order, every target has all the data of the writer
that replaced it last, or what it had at first; and once all writers are done, no temporary file is
left and no other file has changed. A whole call that replaces a file is such steps. -/
theorem replacement_is_atomic {ι : Type} [DecidableEq ι] {writers : ι → Writer}
    (happart : Apart writers) {d : Disk} {c : Scene ι} (h : Reachable writers d c) :
    (∀ i, c.disk.get? (writers i).target = c.content writers d (writers i).target) ∧
    (∀ i, i ∈ c.replaced ↔ c.stage i = .done) ∧
    ((∀ i, c.stage i = .done) →
      (∀ i bs, c.disk.get? (writers i).draft ≠ some (.file bs)) ∧
      ∀ q, (∀ i, q ≠ (writers i).target ∧ q ≠ (writers i).draft) →
        c.disk.get? q = d.get? q ∨
          (d.get? q = none ∧ c.disk.get? q = some .directory ∧ ∃ i, Above (writers i).path q)) ∧
    ∀ i, c.stage i = .waiting →
      ∃ c', Reachable writers d c' ∧ (writers i).Replaces c.disk (c'.stage i) c'.disk := by
  have hsound := sound_of_reachable happart h
  refine ⟨hsound.target, hsound.replaced, fun hdone => ⟨fun i bs => ?_, hsound.other⟩,
    fun i hi => reachable_replace h hi⟩
  have hdraft := hsound.draft i
  rw [hdone i] at hdraft
  exact hdraft bs

def shelf (files : List (String × Bytes)) : Disk :=
  ⟨files.map fun (name, bs) => ({ names := [name] }, .file bs)⟩

def rivals : Bool → Writer
  | true => ⟨{ names := ["s"] }, "1", #[1, 2]⟩
  | false => ⟨{ names := ["s"] }, "2", #[3]⟩

theorem apart_rivals : Apart rivals where
  drafts {i j} h := by
    revert h
    cases i <;> cases j <;> decide
  targets i j := by cases i <;> cases j <;> decide
  ancestors i j := by
    rintro ⟨n, hn, hplace⟩
    have hroot : (rivals j).target ≠ place (cut (rivals i).path 0) := by
      cases i <;> cases j <;> decide
    have hlength : (rivals i).path.names.length = 1 := by cases i <;> rfl
    obtain rfl : n = 0 := by omega
    exact hroot hplace

/-- One writer is done while the other has written a part, and then the other is done too. -/
theorem rivals_are_atomic :
    ∃ c : Scene Bool, Reachable rivals (shelf []) c ∧ c.replaced = [true, false] ∧
      c.disk.get? (rivals true).target = some (.file #[1, 2]) ∧
      ∀ i bs, c.disk.get? (rivals i).draft ≠ some (.file bs) := by
  have hprepare (b : Bool) :
      makeDirectories (rivals b).path.parent (shelf []) = .ok () (shelf []) := by
    cases b <;> cbv
  have hcreate₁ : (shelf []).create (rivals true).temporary = .ok (shelf [("s.tmp.1", #[])]) := by
    cbv
  have hcreate₂ : (shelf [("s.tmp.1", #[])]).create (rivals false).temporary =
    .ok (shelf [("s.tmp.1", #[]), ("s.tmp.2", #[])]) := by cbv
  have hwrite₁ : (shelf [("s.tmp.1", #[]), ("s.tmp.2", #[])]).append (rivals true).temporary #[1] =
    .ok (shelf [("s.tmp.2", #[]), ("s.tmp.1", #[1])]) := by cbv
  have hwrite₂ :
      (shelf [("s.tmp.2", #[]), ("s.tmp.1", #[1])]).append (rivals false).temporary #[3] =
    .ok (shelf [("s.tmp.1", #[1]), ("s.tmp.2", #[3])]) := by cbv
  have hmove₂ :
      (shelf [("s.tmp.1", #[1]), ("s.tmp.2", #[3])]).move (rivals false).temporary
        (rivals false).path =
    .ok (shelf [("s.tmp.1", #[1]), ("s", #[3])]) := by cbv
  have hwrite₃ : (shelf [("s.tmp.1", #[1]), ("s", #[3])]).append (rivals true).temporary #[2] =
    .ok (shelf [("s", #[3]), ("s.tmp.1", #[1, 2])]) := by cbv
  have hmove₁ :
      (shelf [("s", #[3]), ("s.tmp.1", #[1, 2])]).move (rivals true).temporary (rivals true).path =
    .ok (shelf [("s", #[1, 2])]) := by cbv
  have h₀ : Reachable rivals (shelf []) (start (shelf [])) := .refl
  have h₁ := h₀.tail (.work (i := true) (.prepare (hprepare true)))
  have h₂ := h₁.tail (.work (i := false) (.prepare (hprepare false)))
  have h₃ := h₂.tail (.work (i := true) (.create (by decide) hcreate₁))
  have h₄ := h₃.tail (.work (i := false) (.create (by decide) hcreate₂))
  have hcut₁ : (rivals true).data = #[1] ++ #[2] := by decide
  have hcut₂ : (rivals false).data = #[3] ++ #[] := by decide
  have hcut₃ : (#[2] : Bytes) = #[2] ++ #[] := by decide
  have h₅ := h₄.tail (.work (i := true) (.write hcut₁ hwrite₁))
  have h₆ := h₅.tail (.work (i := false) (.write hcut₂ hwrite₂))
  have h₇ := h₆.tail (.replace (i := false) rfl hmove₂)
  have h₈ := h₇.tail (.work (i := true) (.write hcut₃ hwrite₃))
  have h₉ := h₈.tail (.replace (i := true) rfl hmove₁)
  obtain ⟨htarget, -, hdone, -⟩ := replacement_is_atomic apart_rivals h₉
  exact ⟨_, h₉, rfl, htarget true, (hdone fun i => by cases i <;> rfl).1⟩

end Scene

end Brushwork.Disk
