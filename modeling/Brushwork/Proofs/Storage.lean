import Brushwork.Disk

/-!
# What operations on a disk change

A path leads to a place, which does not depend on the disk: only whether one gets there does. Each
operation is told by what stands at every place before and after it. Making directories adds
directories on the way of a path where nothing stood and changes nothing else, also when it fails
half-way. A file that has been replaced has the new content at its place, and the temporary file
beside it is gone.
-/

namespace Brushwork.Disk

/-- The place that a path leads to, if all the directories on its way are there. -/
def place (p : Path) : Path := p.names.foldl next (origin p)

def cut (p : Path) (n : Nat) : Path := { p with names := p.names.take n }

/-- The places of the directories that a path leads through. -/
def Above (p : Path) (q : Path) : Prop := ∃ n < p.names.length, q = place (cut p n)

structure Askable (p : Path) : Prop where
  noNull : (p.names.any fun name => name.contains '\x00') = false
  short : p.text.utf8ByteSize < tooLongPath

section

variable {d d' d₁ : Disk} {p q here : Path} {names : List String} {e : Entry}

theorem get?_of_isOutside (h : p.isOutside = true) (d : Disk) : d.get? p = some .directory :=
  if_pos h

theorem isOutside_of_get? (h : d.get? p ≠ some .directory) : p.isOutside = false := by
  cases hout : p.isOutside with
  | false => rfl
  | true => exact absurd (get?_of_isOutside hout d) h

theorem get?_put (h : p.isOutside = false) (d : Disk) (e : Entry) (q : Path) :
    (d.put p e).get? q = if q = p then some e else d.get? q := by
  unfold get?
  by_cases hq : q = p
  · subst hq
    rw [if_neg (Bool.eq_false_iff.1 h), lookup_put, if_pos rfl, if_pos rfl]
  · rw [lookup_put, if_neg hq, if_neg hq]

theorem get?_erase (h : p.isOutside = false) (d : Disk) (q : Path) :
    (d.erase p).get? q = if q = p then none else d.get? q := by
  unfold get?
  by_cases hq : q = p
  · subst hq
    rw [if_neg (Bool.eq_false_iff.1 h), lookup_erase, if_pos rfl, if_pos rfl]
  · rw [lookup_erase, if_neg hq, if_neg hq]

theorem eq_of_follow (h : d.follow here names = .ok q) : q = names.foldl next here := by
  fun_induction follow d here names with
  | case1 => cases h; rfl
  | case2 | case5 | case6 => cases h
  | case3 here name names _ hlast =>
    cases h
    rw [List.isEmpty_iff.1 hlast]
    rfl
  | case4 here name names _ _ _ ih => exact ih h

/-- One gets at least as far on a disk with at least the same directories. -/
theorem follow_mono (h : d.follow here names = .ok q)
    (hd : ∀ r, d.get? r = some .directory → d'.get? r = some .directory) :
    d'.follow here names = .ok q := by
  fun_induction follow d here names with
  | case1 => exact h
  | case2 | case5 | case6 => cases h
  | case3 here name names hshort hlast => rw [follow, if_neg hshort, if_pos hlast, ← h]
  | case4 here name names hshort hmore hdir ih =>
    rw [follow, if_neg hshort, if_neg hmore, hd _ hdir]
    exact ih h

theorem locate_eq_ok_iff :
    d.locate p = .ok q ↔ Askable p ∧ d.follow (origin p) p.names = .ok q := by
  unfold locate
  constructor
  · intro h
    split at h
    · cases h
    · rename_i hnull
      split at h
      · cases h
      · rename_i hshort
        refine ⟨⟨Bool.eq_false_iff.2 hnull, Nat.not_le.1 hshort⟩, ?_⟩
        split at h
        · rename_i hfollow
          cases h
          exact hfollow
        · cases h
  · rintro ⟨⟨hnull, hshort⟩, hfollow⟩
    rw [if_neg (Bool.eq_false_iff.1 hnull), if_neg (Nat.not_le.2 hshort), hfollow]

theorem eq_of_locate (h : d.locate p = .ok q) : q = place p := eq_of_follow (locate_eq_ok_iff.1 h).2

theorem locate_mono (h : d.locate p = .ok q)
    (hd : ∀ r, d.get? r = some .directory → d'.get? r = some .directory) : d'.locate p = .ok q := by
  obtain ⟨haskable, hfollow⟩ := locate_eq_ok_iff.1 h
  exact locate_eq_ok_iff.2 ⟨haskable, follow_mono hfollow hd⟩

theorem read_eq_ok_iff {bs : Bytes} : d.read p = .ok bs ↔
    d.locate p = .ok (place p) ∧ d.get? (place p) = some (.file bs) := by
  unfold read
  cases hplace : d.locate p with
  | error f => simp [bind, Except.bind]
  | ok r =>
    cases eq_of_locate hplace
    cases hget : d.get? (place p) with
    | none => simp [bind, Except.bind, hget]
    | some e =>
      cases e with
      | file bs' => simp [bind, Except.bind, hget, pure, Except.pure]
      | directory => simp [bind, Except.bind, hget]

theorem makeDirectory_eq_ok_iff : d.makeDirectory p = .ok d' ↔
    d.locate p = .ok (place p) ∧ d.get? (place p) = none ∧ d' = d.put (place p) .directory := by
  unfold makeDirectory
  cases hplace : d.locate p with
  | error f => simp [bind, Except.bind]
  | ok r =>
    cases eq_of_locate hplace
    cases hget : d.get? (place p) with
    | none => simp [bind, Except.bind, hget, pure, Except.pure, eq_comm]
    | some e => simp [bind, Except.bind, hget]

theorem create_eq_ok_iff : d.create p = .ok d' ↔
    d.locate p = .ok (place p) ∧ d.get? (place p) ≠ some .directory ∧
      d' = d.put (place p) (.file #[]) := by
  unfold create
  cases hplace : d.locate p with
  | error f => simp [bind, Except.bind]
  | ok r =>
    cases eq_of_locate hplace
    cases hget : d.get? (place p) with
    | none => simp [bind, Except.bind, hget, pure, Except.pure, eq_comm]
    | some e =>
      cases e with
      | file bs => simp [bind, Except.bind, hget, pure, Except.pure, eq_comm]
      | directory => simp [bind, Except.bind, hget]

theorem append_eq_ok_iff {bs : Bytes} : d.append p bs = .ok d' ↔
    d.locate p = .ok (place p) ∧ ∃ old, d.get? (place p) = some (.file old) ∧
      d' = d.put (place p) (.file (old ++ bs)) := by
  unfold append
  cases hplace : d.locate p with
  | error f => simp [bind, Except.bind]
  | ok r =>
    cases eq_of_locate hplace
    cases hget : d.get? (place p) with
    | none => simp [bind, Except.bind, hget]
    | some e =>
      cases e with
      | file old => simp [bind, Except.bind, hget, pure, Except.pure, eq_comm]
      | directory => simp [bind, Except.bind, hget]

theorem move_eq_ok_iff : d.move p q = .ok d' ↔
    (d.locate p = .ok (place p) ∧ d.locate q = .ok (place q)) ∧
      ∃ bs, d.get? (place p) = some (.file bs) ∧ d.get? (place q) ≠ some .directory ∧
        d' = (d.erase (place p)).put (place q) (.file bs) := by
  unfold move
  cases hread : d.read p with
  | error f =>
    have hno : ¬ ∃ bs, d.locate p = .ok (place p) ∧ d.get? (place p) = some (.file bs) := by
      rintro ⟨bs, h⟩
      rw [read_eq_ok_iff.2 h] at hread
      cases hread
    simp only [bind, Except.bind, reduceCtorEq, false_iff]
    rintro ⟨⟨hp, -⟩, bs, hbs, -⟩
    exact hno ⟨bs, hp, hbs⟩
  | ok bs =>
    obtain ⟨hp, hbs⟩ := read_eq_ok_iff.1 hread
    simp only [bind, Except.bind, hp, hbs]
    cases hq : d.locate q with
    | error f => simp
    | ok r =>
      cases eq_of_locate hq
      cases hget : d.get? (place q) with
      | none => simp [hget, pure, Except.pure, eq_comm]
      | some e =>
        cases e with
        | file old => simp [hget, pure, Except.pure, eq_comm]
        | directory => simp [hget]

theorem get?_of_move (h : d.move p q = .ok d') :
    ∃ bs, d.get? (place p) = some (.file bs) ∧
      ∀ r, d'.get? r = if r = place q then some (.file bs) else if r = place p then none else
      d.get? r := by
  obtain ⟨-, bs, hbs, hq, rfl⟩ := move_eq_ok_iff.1 h
  refine ⟨bs, hbs, fun r => ?_⟩
  rw [get?_put (isOutside_of_get? hq), get?_erase (isOutside_of_get? (by rw [hbs]; nofun))]

/-- A disk that has got some directories where nothing stood, all of them at places of one kind. -/
def Grown (P : Path → Prop) (d d' : Disk) : Prop :=
  ∀ q, d'.get? q = d.get? q ∨ (d.get? q = none ∧ d'.get? q = some .directory ∧ P q)

namespace Grown

variable {P Q : Path → Prop}

theorem refl (P : Path → Prop) (d : Disk) : Grown P d d := fun _ => Or.inl rfl

theorem mono (h : Grown P d d') (hPQ : ∀ q, d.get? q = none → P q → Q q) : Grown Q d d' := by
  intro q
  rcases h q with hsame | ⟨hnone, hdir, hP⟩
  · exact Or.inl hsame
  · exact Or.inr ⟨hnone, hdir, hPQ q hnone hP⟩

theorem trans (h : Grown P d d₁) (h' : Grown P d₁ d') : Grown P d d' := by
  intro q
  rcases h q with hsame | ⟨hnone, hdir, hP⟩
  · rw [← hsame]
    exact h' q
  · rcases h' q with hsame | ⟨hnone', -, -⟩
    · exact Or.inr ⟨hnone, hsame.trans hdir, hP⟩
    · rw [hdir] at hnone'
      cases hnone'

theorem file_iff {bs : Bytes} (h : Grown P d d') :
    d.get? q = some (.file bs) ↔ d'.get? q = some (.file bs) := by
  rcases h q with hsame | ⟨hnone, hdir, -⟩
  · rw [hsame]
  · rw [hnone, hdir]
    simp

theorem get?_eq_of_not (h : Grown P d d') (hq : ¬ P q) : d'.get? q = d.get? q := by
  rcases h q with hsame | ⟨-, -, hP⟩
  · exact hsame
  · exact absurd hP hq

end Grown

end

def Work.disk {α : Type} (work : Work α) (d : Disk) : Disk :=
  match work d with
  | .ok _ d' => d'
  | .error _ d' => d'

section

variable {α β : Type} {work : Work α} {d d' : Disk}

theorem Work.disk_of_ok {a : α} (h : work d = .ok a d') : Work.disk work d = d' := by
  rw [Work.disk, h]

theorem Work.disk_of_error {f : Fault} (h : work d = .error f d') : Work.disk work d = d' := by
  rw [Work.disk, h]

theorem Work.disk_congr {work' : Work α} (h : work d = work' d) :
    Work.disk work d = Work.disk work' d := by
  rw [Work.disk, Work.disk, h]

theorem Work.bind_eq_ok_iff {next : α → Work β} {b : β} :
    (work >>= next) d = .ok b d' ↔ ∃ a d₁, work d = .ok a d₁ ∧ next a d₁ = .ok b d' := by
  simp only [bind, EStateM.bind]
  cases work d with
  | ok a d₁ =>
    constructor
    · intro h
      exact ⟨a, d₁, rfl, h⟩
    · rintro ⟨a', d₁', h, h'⟩
      cases h
      exact h'
  | error f d₁ => simp

theorem Work.bind_of_ok {next : α → Work β} {a : α} (h : work d = .ok a d') :
    (work >>= next) d = next a d' := by
  simp only [bind, EStateM.bind, h]

theorem Work.bind_of_error {next : α → Work β} {f : Fault} (h : work d = .error f d') :
    (work >>= next) d = .error f d' := by
  simp only [bind, EStateM.bind, h]

theorem Work.perform_of_ok {step : Disk → Except Fault Disk} (h : step d = .ok d') :
    perform step d = .ok () d' := by
  rw [perform, h]

theorem Work.perform_of_error {step : Disk → Except Fault Disk} {f : Fault}
    (h : step d = .error f) : perform step d = .error f d := by
  rw [perform, h]

theorem Work.perform_eq_ok_iff {step : Disk → Except Fault Disk} {u : Unit} :
    perform step d = .ok u d' ↔ step d = .ok d' := by
  unfold perform
  cases step d <;> simp

theorem Work.grown_bind {P : Path → Prop} {next : α → Work β} (h : Grown P d (Work.disk work d))
    (hnext : ∀ a d₁, Grown P d₁ (Work.disk (next a) d₁)) :
    Grown P d (Work.disk (work >>= next) d) := by
  unfold Work.disk at h
  simp only [Work.disk, bind, EStateM.bind]
  cases hwork : work d with
  | ok a d₁ =>
    rw [hwork] at h
    exact h.trans (hnext a d₁)
  | error f d₁ =>
    rw [hwork] at h
    exact h

end

section

variable {d d' : Disk} {p q here : Path}

theorem grown_requireDirectory (p : Path) (d : Disk) :
    Grown (· = place p) d (Work.disk (requireDirectory p) d) := by
  unfold Work.disk requireDirectory
  cases hmake : d.makeDirectory p with
  | ok d' =>
    obtain ⟨-, hnone, rfl⟩ := makeDirectory_eq_ok_iff.1 hmake
    intro q
    have hput :=
      get?_put (isOutside_of_get? (d := d) (p := place p) (by rw [hnone]; nofun)) d .directory q
    by_cases hq : q = place p
    · subst hq
      exact Or.inr ⟨hnone, hput.trans (if_pos rfl), rfl⟩
    · exact Or.inl (hput.trans (if_neg hq))
  | error f =>
    by_cases hdir : d.isDirectory p = true
    · simp only [if_pos hdir]
      exact Grown.refl _ d
    · simp only [if_neg hdir]
      exact Grown.refl _ d

@[simp] theorem cut_length (p : Path) : cut p p.names.length = p := by
  unfold cut
  rw [List.take_length]

theorem cut_parent {n : Nat} (h : n ≤ p.parent.names.length) : cut p.parent n = cut p n := by
  simp only [cut, Path.parent, List.length_dropLast] at h ⊢
  rw [List.dropLast_eq_take, List.take_take, Nat.min_eq_left h]

/-- A directory is made at once, or those above it are made before. -/
theorem makeDirectories_cases (p : Path) (d : Disk) :
    makeDirectories p d = requireDirectory p d ∨
      p.names.dropLast.length < p.names.length ∧
        makeDirectories p d = (do makeDirectories p.parent; requireDirectory p : Work Unit) d := by
  rw [makeDirectories]
  split
  · by_cases hlt : p.names.dropLast.length < p.names.length
    · rw [dif_pos hlt]
      exact Or.inr ⟨hlt, rfl⟩
    · rw [dif_neg hlt]
      exact Or.inl rfl
  · exact Or.inl rfl

/-- Making a directory and those above it, however far it gets, adds directories on the way of the
path. -/
theorem grown_makeDirectories (p : Path) (d : Disk) :
    Grown (fun q => ∃ n ≤ p.names.length, q = place (cut p n)) d
      (Work.disk (makeDirectories p) d) := by
  have hrequire (d : Disk) : Grown (fun q => ∃ n ≤ p.names.length, q = place (cut p n)) d
      (Work.disk (requireDirectory p) d) := by
    refine (grown_requireDirectory p d).mono fun q _ hq => ?_
    exact ⟨_, Nat.le_refl _, by rw [cut_length]; exact hq⟩
  rcases makeDirectories_cases p d with hmake | ⟨hlt, hmake⟩
  · rw [Work.disk_congr hmake]
    exact hrequire d
  · rw [Work.disk_congr hmake]
    apply Work.grown_bind
    · refine (grown_makeDirectories p.parent d).mono ?_
      rintro q - ⟨n, hn, rfl⟩
      exact ⟨n, Nat.le_trans hn (Nat.le_of_lt hlt), by rw [cut_parent hn]⟩
    · exact fun _ d₁ => hrequire d₁
termination_by p.names.length

/-- The directories that are made for a file are those that its path leads through. -/
theorem grown_makeDirectories_parent (p : Path) (d : Disk) :
    Grown (Above p) d (Work.disk (makeDirectories p.parent) d) := by
  refine (grown_makeDirectories p.parent d).mono ?_
  rintro q hnone ⟨n, hn, rfl⟩
  rw [cut_parent hn] at hnone ⊢
  have hlength : p.parent.names.length = p.names.length - 1 := List.length_dropLast
  by_cases hnames : p.names = []
  · have hstart : (place (cut p n)).isOutside = true := by
      simp only [place, cut, hnames, List.take_nil, List.foldl_nil]
      rfl
    rw [get?_of_isOutside hstart] at hnone
    cases hnone
  · have := List.length_pos_iff.2 hnames
    exact ⟨n, by omega, rfl⟩

theorem length_temporaryName (last mark : String) : 5 ≤ (last ++ ".tmp." ++ mark).length := by
  have hmiddle : ".tmp.".length = 5 := rfl
  rw [String.length_append, String.length_append, hmiddle]
  omega

theorem next_of_length {name : String} (h : 2 < name.length) (here : Path) :
    next here name = here.child name := by
  apply if_pos
  rintro rfl
  exact absurd h (by decide)

theorem place_concat {init : List String} {last : String} (h : p.names = init ++ [last]) :
    place p = next (init.foldl next (origin p)) last := by
  rw [place, h, List.foldl_append]
  rfl

theorem place_temporary {init : List String} {last : String} (h : p.names = init ++ [last])
    (mark : String) : place (temporary p mark) =
      (init.foldl next (origin p)).child (last ++ ".tmp." ++ mark) := by
  have hnames : (temporary p mark).names = init ++ [last ++ ".tmp." ++ mark] := by
    simp [temporary, Path.withName, h]
  rw [place_concat hnames,
    next_of_length (Nat.lt_of_lt_of_le (by decide) (length_temporaryName last mark))]
  rfl

/-- The temporary file stands at a place of its own. -/
theorem place_temporary_ne (h : p.names ≠ []) (mark : String) :
    place (temporary p mark) ≠ place p := by
  obtain ⟨init, last, hnames⟩ : ∃ init last, p.names = init ++ [last] :=
    ⟨_, _, (List.dropLast_concat_getLast h).symm⟩
  rw [place_temporary hnames, place_concat hnames]
  generalize init.foldl next (origin p) = here
  have hlast : last ++ ".tmp." ++ mark ≠ last := by
    intro heq
    have := congrArg String.length heq
    have hmiddle : ".tmp.".length = 5 := rfl
    rw [String.length_append, String.length_append, hmiddle] at this
    omega
  intro heq
  have hpath := congrArg Path.names heq
  unfold next at hpath
  split at hpath
  · simp only [Path.child, List.append_cancel_left_eq, List.cons.injEq, and_true] at hpath
    exact hlast hpath
  · rename_i hup
    split at hpath
    · have := congrArg List.length hpath
      simp only [Path.child, Path.parent, List.length_append, List.length_dropLast,
        List.length_cons, List.length_nil] at this
      omega
    · split at hpath
      · simp only [Path.child, List.append_cancel_left_eq, List.cons.injEq, and_true] at hpath
        exact hlast hpath
      · have := congrArg List.length hpath
        simp only [Path.child, List.length_append, List.length_cons, List.length_nil] at this
        omega

theorem replace_of_nameless (h : p.names = []) (mark : String) (bs : Bytes) :
    replace mark p bs = (do makeDirectories p.parent; throw ⟨.nameless, p⟩) := by
  unfold replace
  rw [h]
  rfl

/-- The steps that replace a file, one after the other. -/
theorem replace_of_named (h : p.names ≠ []) (mark : String) (bs : Bytes) :
    replace mark p bs = (do
      makeDirectories p.parent
      perform fun d => d.create (temporary p mark)
      perform fun d => d.append (temporary p mark) bs
      perform fun d => d.move (temporary p mark) p) := by
  unfold replace
  rw [if_neg (fun hempty => h (List.isEmpty_iff.1 hempty))]

theorem replace_eq_ok_iff {mark : String} {bs : Bytes} {u : Unit} :
    replace mark p bs d = .ok u d' ↔ p.names ≠ [] ∧ ∃ d₁ d₂ d₃,
      makeDirectories p.parent d = .ok () d₁ ∧ d₁.create (temporary p mark) = .ok d₂ ∧
      d₂.append (temporary p mark) bs = .ok d₃ ∧ d₃.move (temporary p mark) p = .ok d' := by
  by_cases hnames : p.names = []
  · simp only [replace_of_nameless hnames, Work.bind_eq_ok_iff, hnames, ne_eq,
      not_true_eq_false, false_and, iff_false]
    rintro ⟨-, d₁, -, h⟩
    cases h
  · simp only [replace_of_named hnames, Work.bind_eq_ok_iff, Work.perform_eq_ok_iff, ne_eq, hnames,
      not_false_eq_true, true_and]
    constructor
    · rintro ⟨⟨⟩, d₁, hmake, ⟨⟩, d₂, hcreate, ⟨⟩, d₃, happend, hmove⟩
      exact ⟨d₁, d₂, d₃, hmake, hcreate, happend, hmove⟩
    · rintro ⟨d₁, d₂, d₃, hmake, hcreate, happend, hmove⟩
      exact ⟨(), d₁, hmake, (), d₂, hcreate, (), d₃, happend, hmove⟩

/-- What stands where after a file has been replaced. -/
structure Replaced (mark : String) (p : Path) (bs : Bytes) (d d' : Disk) : Prop where
  content : d'.read p = .ok bs
  draft : d'.get? (place (temporary p mark)) = none
  other : ∀ q, q ≠ place p → q ≠ place (temporary p mark) →
    d'.get? q = d.get? q ∨ (d.get? q = none ∧ d'.get? q = some .directory ∧ Above p q)

theorem replaced_of_replace {mark : String} {bs : Bytes} {u : Unit}
    (h : replace mark p bs d = .ok u d') : Replaced mark p bs d d' := by
  obtain ⟨hnames, d₁, d₂, d₃, hmake, hcreate, happend, hmove⟩ := replace_eq_ok_iff.1 h
  have hgrown := grown_makeDirectories_parent p d
  rw [Work.disk_of_ok hmake] at hgrown
  obtain ⟨-, hfree, rfl⟩ := create_eq_ok_iff.1 hcreate
  have houtside := isOutside_of_get? hfree
  obtain ⟨-, old, hold, rfl⟩ := append_eq_ok_iff.1 happend
  rw [get?_put houtside, if_pos rfl] at hold
  cases hold
  obtain ⟨bs', hbs', hget⟩ := get?_of_move hmove
  have hdraft := hbs'
  rw [get?_put houtside, if_pos rfl] at hbs'
  cases hbs'
  obtain ⟨⟨-, hlocate⟩, -, -, hfile, -⟩ := move_eq_ok_iff.1 hmove
  refine ⟨read_eq_ok_iff.2 ⟨locate_mono hlocate fun r hr => ?_, ?_⟩, ?_, fun q hq hq' => ?_⟩
  · have hr₁ : r ≠ place p := fun h => hfile (h ▸ hr)
    have hr₂ : r ≠ place (temporary p mark) := by
      rintro rfl
      rw [hdraft] at hr
      cases hr
    rw [hget, if_neg hr₁, if_neg hr₂, hr]
  · rw [hget, if_pos rfl, Array.empty_append]
  · rw [hget, if_neg (place_temporary_ne hnames mark), if_pos rfl]
  · rw [hget, if_neg hq, if_neg hq', get?_put houtside, if_neg hq', get?_put houtside, if_neg hq']
    exact hgrown q

theorem follow_dropLast {init : List String} {last : String}
    (h : d.follow here (init ++ [last]) = .ok q) (hhere : d.get? here = some .directory) :
    d.follow here init = .ok (init.foldl next here) ∧
      d.get? (init.foldl next here) = some .directory := by
  induction init generalizing here with
  | nil => exact ⟨rfl, hhere⟩
  | cons name init ih =>
    have hmore : (init ++ [last]).isEmpty = false := by cases init <;> rfl
    rw [List.cons_append, follow] at h
    split at h
    · cases h
    · rename_i hshort
      rw [hmore, if_neg Bool.false_ne_true] at h
      split at h
      · rename_i hdir
        obtain ⟨hfollow, hlast⟩ := ih h hdir
        refine ⟨?_, hlast⟩
        rw [follow, if_neg hshort, hdir]
        by_cases hinit : init.isEmpty = true
        · rw [if_pos hinit, List.isEmpty_iff.1 hinit]
          rfl
        · rw [if_neg hinit]
          exact hfollow
      · cases h
      · cases h

theorem size_text_parent_le (p : Path) :
    p.parent.text.utf8ByteSize ≤ max 1 p.text.utf8ByteSize := by
  by_cases hnames : p.names = []
  · obtain ⟨anchor, names⟩ := p
    cases hnames
    exact Nat.le_max_right _ _
  · have htext : p.text = p.anchor.text ++ "/".intercalate p.names := by
      rw [Path.text, List.isEmpty_eq_false_iff.2 hnames, Bool.and_false, if_neg Bool.false_ne_true]
    rw [Path.text]
    split
    · exact Nat.le_max_left _ _
    · apply Nat.le_trans ?_ (Nat.le_max_right _ _)
      rw [htext, String.utf8ByteSize_append, String.utf8ByteSize_append]
      apply Nat.add_le_add_left
      by_cases hinit : p.names.dropLast = []
      · simp only [Path.parent, hinit, String.intercalate_nil]
        exact Nat.zero_le _
      · have hlast := List.cons_ne_nil (p.names.getLast hnames) []
        have hsplit := String.intercalate_append_of_ne_nil (s := "/") hinit hlast
        rw [List.dropLast_concat_getLast hnames] at hsplit
        rw [hsplit, String.utf8ByteSize_append, String.utf8ByteSize_append]
        exact Nat.le_trans (Nat.le_add_right _ _) (Nat.le_add_right _ _)

theorem Askable.parent (h : Askable p) : Askable p.parent := by
  refine ⟨?_, ?_⟩
  · rw [Bool.eq_false_iff, ne_eq, List.any_eq_true]
    rintro ⟨name, hname, hnull⟩
    have := List.any_eq_false.1 h.noNull name (List.dropLast_subset _ hname)
    exact this hnull
  · have hle := size_text_parent_le p
    have hshort := h.short
    have hone : 1 < tooLongPath := by decide
    omega

theorem locate_parent (h : d.locate p = .ok q) (hnames : p.names ≠ []) :
    d.locate p.parent = .ok (place p.parent) ∧ d.get? (place p.parent) = some .directory := by
  obtain ⟨haskable, hfollow⟩ := locate_eq_ok_iff.1 h
  rw [← List.dropLast_concat_getLast hnames] at hfollow
  have horigin : d.get? (origin p) = some .directory := get?_of_isOutside rfl d
  obtain ⟨hparent, hdir⟩ := follow_dropLast hfollow horigin
  exact ⟨locate_eq_ok_iff.2 ⟨haskable.parent, hparent⟩, hdir⟩

theorem makeDirectories_of_directory (h : d.locate p = .ok (place p))
    (hdir : d.get? (place p) = some .directory) : makeDirectories p d = .ok () d := by
  have hmake : d.makeDirectory p = .error ⟨.occupied, p⟩ := by
    simp only [makeDirectory, h, bind, Except.bind, hdir]
    rfl
  have hthere : d.isDirectory p = true := by
    simp only [isDirectory, look, h, hdir]
  simp only [makeDirectories, hmake, requireDirectory, hthere, if_true]

theorem names_of_read {bs : Bytes} (h : d.read p = .ok bs) : p.names ≠ [] := by
  intro hnames
  obtain ⟨-, hget⟩ := read_eq_ok_iff.1 h
  have hplace : (place p).isOutside = true := by
    rw [place, hnames]
    rfl
  rw [get?_of_isOutside hplace] at hget
  cases hget

theorem get?_of_put {bs : Bytes} (hq : d.get? q ≠ some .directory) (h : d' = d.put q (.file bs)) :
    d'.get? q = some (.file bs) ∧ (∀ r ≠ q, d'.get? r = d.get? r) ∧
      ∀ r, d.get? r = some .directory → d'.get? r = some .directory := by
  have hget (r : Path) : d'.get? r = if r = q then some (.file bs) else d.get? r := by
    rw [h, get?_put (isOutside_of_get? hq)]
  refine ⟨(hget q).trans (if_pos rfl), fun r hr => (hget r).trans (if_neg hr), fun r hr => ?_⟩
  have hne : r ≠ q := fun heq => hq (heq ▸ hr)
  rw [hget, if_neg hne, hr]

/-- A file that is there can be replaced if a temporary file can be created beside it, and only
then. -/
theorem replace_of_read {old : Bytes} (hread : d.read p = .ok old) (mark : String) (bs : Bytes) :
    (∀ f, d.create (temporary p mark) = .error f → replace mark p bs d = .error f d) ∧
    (∀ d₁, d.create (temporary p mark) = .ok d₁ → ∃ d', replace mark p bs d = .ok () d') := by
  have hnames := names_of_read hread
  obtain ⟨hlocate, hget⟩ := read_eq_ok_iff.1 hread
  obtain ⟨hparent, hdir⟩ := locate_parent hlocate hnames
  have hmake := makeDirectories_of_directory hparent hdir
  constructor
  · intro f hcreate
    rw [replace_of_named hnames, Work.bind_of_ok hmake,
      Work.bind_of_error (Work.perform_of_error hcreate)]
  · intro d₁ hcreate
    obtain ⟨hdraft, hfree, hd₁⟩ := create_eq_ok_iff.1 hcreate
    have hne := (place_temporary_ne hnames mark).symm
    -- until the last step only the temporary file changes, so one gets to both files as before
    obtain ⟨hempty, hsame₁, hmono₁⟩ := get?_of_put hfree hd₁
    have hfile₁ : d₁.get? (place (temporary p mark)) ≠ some .directory := by
      rw [hempty]
      exact fun h => by cases h
    obtain ⟨d₂, hd₂⟩ : ∃ d₂, d₂ = d₁.put (place (temporary p mark)) (.file (#[] ++ bs)) := ⟨_, rfl⟩
    have happend := append_eq_ok_iff.2 ⟨locate_mono hdraft hmono₁, #[], hempty, hd₂⟩
    obtain ⟨hfull, hsame₂, hmono₂⟩ := get?_of_put hfile₁ hd₂
    have htarget : d₂.get? (place p) ≠ some .directory := by
      rw [hsame₂ _ hne, hsame₁ _ hne, hget]
      exact fun h => by cases h
    have hmono := fun r hr => hmono₂ r (hmono₁ r hr)
    have hmove :=
      move_eq_ok_iff.2 ⟨⟨locate_mono hdraft hmono, locate_mono hlocate hmono⟩, _, hfull,
        htarget, rfl⟩
    exact ⟨_, replace_eq_ok_iff.2 ⟨hnames, _, _, _, hmake, hcreate, happend, hmove⟩⟩

end

end Brushwork.Disk
