/-
# ParquetStruct.Proofs.Store.Write — what writing a file changes.

Before a file is written, the steps of its path are followed, and each has to lead to a directory.
So every directory around the file is there already, and writing makes no new one: what changes is
what stands at the place that the path names, and nothing else.  The same path then leads to what
was written, since the directories on the way are still there.
-/
import ParquetStruct.Proofs.Outcome
import ParquetStruct.Store.Basic
import Mathlib.Data.List.Infix

namespace ParquetStruct.Store

open Parquet (Content)

variable {s s' : Store} {p q dir : Place} {steps : List Step} {text : String} {content : Content}

/-! ## Places around a place -/

theorem Place.isWithin_iff :
    p.isWithin q = true ↔ p.anchor = q.anchor ∧ q.names <+: p.names := by
  rw [Place.isWithin, Bool.and_eq_true, beq_iff_eq, List.isPrefixOf_iff_prefix]

theorem Place.isWithin_child {name : String} (h : (p.child name).isWithin q = true) :
    q = p.child name ∨ p.isWithin q = true := by
  obtain ⟨hanchor, hnames⟩ := isWithin_iff.mp h
  rcases List.prefix_concat_iff.mp hnames with hall | hbefore
  · left
    cases q
    cases hanchor
    cases hall
    rfl
  · exact Or.inr (isWithin_iff.mpr ⟨hanchor, hbefore⟩)

/-- What lies around the place above a place lies around that place, or is an anchor. -/
theorem Place.isWithin_parent (h : p.parent.isWithin q = true) :
    q.names = [] ∨ p.isWithin q = true := by
  obtain ⟨hanchor, hnames⟩ := isWithin_iff.mp h
  unfold parent at hanchor hnames
  split at hanchor
  · rename_i hempty
    rw [if_pos hempty, List.isEmpty_iff.mp hempty] at hnames
    exact Or.inl (List.prefix_nil.mp hnames)
  · rename_i hempty
    rw [if_neg hempty] at hnames
    exact Or.inr (isWithin_iff.mpr ⟨hanchor, hnames.trans p.names.dropLast_prefix⟩)

/-! ## What stands at a place -/

/-- Whether there is a directory at a place that holds no file and is not the empty file. -/
def hasDirectory (s : Store) (p : Place) : Bool :=
  isFixedDirectory p || s.files.any fun f => f.1.isWithin p

theorem entry_eq (s : Store) (p : Place) : s.entry p =
    match s.files.lookup p with
    | some content => .file content
    | none =>
      if p = emptyFile then .file (.bytes .empty)
      else if s.hasDirectory p then .directory
      else .nothing := rfl

theorem entry_ne_nothing_of_names (h : p.names = []) : s.entry p ≠ .nothing := by
  have hdirectory : s.hasDirectory p = true := by
    rw [hasDirectory, isFixedDirectory, h]
    rfl
  rw [entry_eq, hdirectory]
  split
  · exact Entry.noConfusion
  · split
    · exact Entry.noConfusion
    · exact Entry.noConfusion

theorem lookup_filter_of_ne {files : List (Place × Content)} (h : q ≠ p) :
    (files.filter fun f => f.1 != p).lookup q = files.lookup q := by
  induction files with
  | nil => rfl
  | cons f files ih =>
    by_cases hf : f.1 = p
    · have hq : (q == f.1) = false := beq_eq_false_iff_ne.mpr (hf ▸ h)
      rw [List.filter_cons_of_neg (by simp [hf]), ih, List.lookup_cons, hq]
    · rw [List.filter_cons_of_pos (by simpa using hf), List.lookup_cons, List.lookup_cons, ih]

theorem any_filter_of_not_isWithin {files : List (Place × Content)} (h : p.isWithin q = false) :
    ((files.filter fun f => f.1 != p).any fun f => f.1.isWithin q) =
      files.any fun f => f.1.isWithin q := by
  rw [List.any_filter]
  congr 1
  funext f
  by_cases hf : f.1 = p
  · rw [hf, h, Bool.and_false]
  · rw [bne_iff_ne.mpr hf, Bool.true_and]

/-- Putting a file where everything around it is there already changes nothing at other places. -/
theorem entry_put_of_ne (hq : q ≠ p) (hp : p.isWithin q = true → s.entry q ≠ .nothing)
    (content : Content) : (s.put p content).entry q = s.entry q := by
  have hlookup : (s.put p content).files.lookup q = s.files.lookup q := by
    rw [put, List.lookup_cons, beq_eq_false_iff_ne.mpr hq]
    exact lookup_filter_of_ne hq
  rw [entry_eq, entry_eq, hlookup]
  rw [entry_eq] at hp
  cases hfile : s.files.lookup q with
  | some _ => rfl
  | none =>
    rw [hfile] at hp
    dsimp only at hp ⊢
    by_cases hempty : q = emptyFile
    · rw [if_pos hempty, if_pos hempty]
    · rw [if_neg hempty] at hp
      rw [if_neg hempty, if_neg hempty]
      have hdirectory : (s.put p content).hasDirectory q = s.hasDirectory q := by
        cases hwithin : p.isWithin q with
        | false =>
          rw [hasDirectory, hasDirectory, put, List.any_cons, hwithin, Bool.false_or,
            any_filter_of_not_isWithin hwithin]
        | true =>
          -- Only here the new file could make a directory, but there is one.
          have hthere : s.hasDirectory q = true := by
            by_contra hno
            exact hp hwithin (if_neg hno)
          rw [hthere, hasDirectory, put, List.any_cons, hwithin, Bool.true_or, Bool.or_true]
      rw [hdirectory]

/-! ## Following a path -/

/-- Whether everything around a place, up to its anchor, is there. -/
def IsGrounded (s : Store) (p : Place) : Prop :=
  ∀ q, p.isWithin q = true → s.entry q ≠ .nothing

theorem isGrounded_of_names (h : p.names = []) : s.IsGrounded p := by
  intro q hq
  apply entry_ne_nothing_of_names
  exact List.prefix_nil.mp (h ▸ (Place.isWithin_iff.mp hq).2)

/-- A step leads to the place it names, and a step down only to a directory. -/
theorem enter_eq_ok_iff {step : Step} : s.enter dir step = .ok p ↔
    p = step.apply dir ∧ ∀ name, step = .down name →
      name.utf8ByteSize ≤ nameLimit ∧ s.entry (dir.child name) = .directory := by
  cases step with
  | stay => simp [enter, Step.apply, eq_comm]
  | up => simp [enter, Step.apply, eq_comm]
  | down name =>
    simp only [enter, lookUp, Step.apply, Step.down.injEq, forall_eq']
    by_cases hname : nameLimit < name.utf8ByteSize
    · rw [if_pos hname]
      simp [Nat.not_le.mpr hname]
    · rw [if_neg hname, ok_bind]
      cases s.entry (dir.child name) with
      | directory => simpa [eq_comm] using fun _ => hname
      | file _ => simp [throw, throwThe, MonadExceptOf.throw]
      | nothing => simp [throw, throwThe, MonadExceptOf.throw]

theorem isGrounded_enter {step : Step} (hdir : s.IsGrounded dir) (h : s.enter dir step = .ok p) :
    s.IsGrounded p := by
  obtain ⟨rfl, hdown⟩ := enter_eq_ok_iff.mp h
  intro q hq
  cases step with
  | stay => exact hdir q hq
  | up =>
    rcases Place.isWithin_parent hq with hnames | hq
    · exact entry_ne_nothing_of_names hnames
    · exact hdir q hq
  | down name =>
    rcases Place.isWithin_child hq with rfl | hq
    · rw [(hdown name rfl).2]
      exact Entry.noConfusion
    · exact hdir q hq

/-- Steps that can be followed lead to the place they name, and all around it is there. -/
theorem isGrounded_of_follow (hdir : s.IsGrounded dir) (h : steps.foldlM s.enter dir = .ok p) :
    p = steps.foldl Step.apply dir ∧ s.IsGrounded p := by
  induction steps generalizing dir with
  | nil =>
    cases h
    exact ⟨rfl, hdir⟩
  | cons step steps ih =>
    rw [List.foldlM_cons, bind_eq_ok_iff] at h
    obtain ⟨next, hstep, hrest⟩ := h
    obtain ⟨hp, hgrounded⟩ := ih (isGrounded_enter hdir hstep) hrest
    rw [List.foldl_cons, ← (enter_eq_ok_iff.mp hstep).1]
    exact ⟨hp, hgrounded⟩

/-- Steps can still be followed if every directory is still there. -/
theorem follow_of_directories
    (hs : ∀ q, s.entry q = .directory → s'.entry q = .directory)
    (h : steps.foldlM s.enter dir = .ok p) : steps.foldlM s'.enter dir = .ok p := by
  induction steps generalizing dir with
  | nil => exact h
  | cons step steps ih =>
    rw [List.foldlM_cons, bind_eq_ok_iff] at h ⊢
    obtain ⟨next, hstep, hrest⟩ := h
    obtain ⟨hnext, hdown⟩ := enter_eq_ok_iff.mp hstep
    refine ⟨next, enter_eq_ok_iff.mpr ⟨hnext, fun name hname => ?_⟩, ih hrest⟩
    exact ⟨(hdown name hname).1, hs _ (hdown name hname).2⟩

theorem directory_eq_ok_iff : s.directory text = .ok dir ↔
    text.isEmpty = false ∧ text.utf8ByteSize < pathLimit ∧
      (Path.ofString text).leading.foldlM s.enter (Path.ofString text).start = .ok dir := by
  unfold directory
  by_cases hempty : text.isEmpty = true
  · simp [hempty]
  · rw [if_neg hempty, Bool.not_eq_true] at *
    by_cases hlong : pathLimit ≤ text.utf8ByteSize
    · rw [if_pos hlong]
      simp [hempty, Nat.not_lt.mpr hlong]
    · rw [if_neg hlong]
      simp [hempty, Nat.lt_of_not_le hlong]

/-! ## Writing -/

/-- A write that takes place puts the content at the place that the path names, in a directory, and
no directory stands there; what is written to the empty file is lost. -/
theorem write_eq_ok (h : s.write text content = .ok s') :
    ∃ dir name, s.directory text = .ok dir ∧ (Path.ofString text).last = .down name ∧
      (Path.ofString text).slash = false ∧ name.utf8ByteSize ≤ nameLimit ∧
      s.entry (dir.child name) ≠ .directory ∧
      s' = if dir.child name = emptyFile then s else s.put (dir.child name) content := by
  obtain ⟨dir, hdir, h⟩ := bind_eq_ok_iff.mp h
  cases hlast : (Path.ofString text).last with
  | stay | up =>
    rw [hlast] at h
    cases h
  | down name =>
    rw [hlast] at h
    dsimp only at h
    cases hslash : (Path.ofString text).slash with
    | true =>
      rw [hslash] at h
      cases h
    | false =>
      rw [hslash] at h
      obtain ⟨entry, hentry, h⟩ := bind_eq_ok_iff.mp h
      unfold lookUp at hentry
      split at hentry
      · cases hentry
      · rename_i hname
        cases hentry
        refine ⟨dir, name, hdir, rfl, rfl, Nat.le_of_not_lt hname, ?_⟩
        cases hthere : s.entry (dir.child name) with
        | directory =>
          rw [hthere] at h
          cases h
        | file _ | nothing =>
          rw [hthere] at h
          cases h
          exact ⟨Entry.noConfusion, rfl⟩

/-- Two stores, one before and one after a path was written: the path leads to what was written, and
at all other places stands what stood there before.  Of the empty file nothing changes at all. -/
structure IsWritten (text : String) (content : Content) (s s' : Store) : Prop where
  read : (Path.ofString text).place ≠ emptyFile → s'.read text = .ok content
  lost : (Path.ofString text).place = emptyFile → s' = s
  others : ∀ q, q ≠ (Path.ofString text).place → s'.entry q = s.entry q

/-- What was put at the place of a file is read under every path to it. -/
theorem read_put {name : String} (hdir : (s.put (dir.child name) content).directory text = .ok dir)
    (hlast : (Path.ofString text).last = .down name) (hslash : (Path.ofString text).slash = false)
    (hname : name.utf8ByteSize ≤ nameLimit) :
    (s.put (dir.child name) content).read text = .ok content := by
  rw [Store.read, hdir, ok_bind, hlast]
  dsimp only
  rw [lookUp, if_neg (Nat.not_lt.mpr hname), ok_bind, entry_put, hslash]
  rfl

/-- A write that takes place changes what its path leads to, and nothing else. -/
theorem isWritten_of_write (h : s.write text content = .ok s') : IsWritten text content s s' := by
  obtain ⟨dir, name, hdir, hlast, hslash, hname, hthere, rfl⟩ := write_eq_ok h
  obtain ⟨hempty, hlong, hfollow⟩ := directory_eq_ok_iff.mp hdir
  obtain ⟨hplace, hgrounded⟩ := isGrounded_of_follow (isGrounded_of_names rfl) hfollow
  have hplace : (Path.ofString text).place = dir.child name := by
    rw [Path.place, hlast, ← hplace]
    rfl
  by_cases hnull : dir.child name = emptyFile
  · rw [if_pos hnull]
    exact ⟨fun hno => absurd (hplace.trans hnull) hno, fun _ => rfl, fun _ _ => rfl⟩
  · rw [if_neg hnull]
    have hothers : ∀ q, q ≠ dir.child name →
        (s.put (dir.child name) content).entry q = s.entry q := by
      intro q hq
      refine entry_put_of_ne hq (fun hwithin => ?_) content
      rcases Place.isWithin_child hwithin with hself | hwithin
      · exact absurd hself hq
      · exact hgrounded q hwithin
    refine ⟨fun _ => ?_, fun hyes => absurd (hplace.symm.trans hyes) hnull, hplace ▸ hothers⟩
    -- No directory stood where the file is now, so the way to it is what it was.
    have hdir' : (s.put (dir.child name) content).directory text = .ok dir := by
      refine directory_eq_ok_iff.mpr ⟨hempty, hlong, follow_of_directories (fun q hq => ?_) hfollow⟩
      rw [hothers q fun hself => hthere (hself ▸ hq), hq]
    exact read_put hdir' hlast hslash hname

end ParquetStruct.Store
