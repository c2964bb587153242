/-
# ParquetStruct.Proofs.Command.Run — a run does all of its work or none.

The text of a job is complete before anything is printed or written, and whatever can go wrong
before that ends the run.  After that only one write is left, which takes place as a whole or not at
all.  So a run that fails prints nothing and changes no file; a run that succeeds either prints its
text, or has written the same text where it was told to, whatever was there before.
-/
import ParquetStruct.Command.Run
import ParquetStruct.Proofs.Store.Write

namespace ParquetStruct.Command

open Parquet (Content)
open Store (SystemError IsWritten)

variable {job : Job} {s s' : Store} {found : Except SystemError Content} {e : Failure}

/-! ## The text of a job -/

theorem text_of_tree_error (h : job.tree found = .error e) : job.text found = .error e := by
  rw [Job.text, h, error_bind]

theorem text_of_render_error {root : Node} {e : SchemaError} (htree : job.tree found = .ok root)
    (h : job.format.render job.pretty job.maxDepth root = .error e) :
    job.text found = .error (.schema e) := by
  rw [Job.text, htree, ok_bind, h, mapError_error, error_bind]

/-- A job has a text exactly if its file holds a tree that can be rendered; a newline ends it. -/
theorem text_eq_ok_iff {text : String} : job.text found = .ok text ↔
    ∃ root rendered, job.tree found = .ok root ∧
      job.format.render job.pretty job.maxDepth root = .ok rendered ∧ rendered ++ "\n" = text := by
  rw [Job.text, bind_eq_ok_iff]
  constructor
  · rintro ⟨root, htree, h⟩
    cases hrender : job.format.render job.pretty job.maxDepth root with
    | error e =>
      rw [hrender] at h
      cases h
    | ok rendered =>
      rw [hrender] at h
      cases h
      exact ⟨root, rendered, htree, hrender, rfl⟩
  · rintro ⟨root, rendered, htree, hrender, rfl⟩
    refine ⟨root, htree, ?_⟩
    rw [hrender]
    rfl

/-! ## Runs -/

/-- Without a text nothing happens. -/
theorem run_of_text_error (h : job.text (s.read job.input) = .error e) :
    job.run s = (.failure e, s) := by
  rw [Job.run, h]

/-- With a text the run prints it, or comes down to a single write. -/
theorem run_of_text {text : String} (h : job.text (s.read job.input) = .ok text) :
    job.run s = match job.output with
      | none => (.success text, s)
      | some path =>
        match s.write path (.bytes text.toUTF8) with
        | .ok s => (.success "", s)
        | .error e => (.failure (.output e), s) := by
  rewrite [Job.run, h]
  rfl

/-- A run that does not succeed leaves the store as it was, also if it is the write that fails. -/
theorem eq_of_run_failure {outcome : Outcome} (h : job.run s = (outcome, s'))
    (hfails : outcome.exitCode ≠ 0) : s' = s := by
  cases htext : job.text (s.read job.input) with
  | error e =>
    rw [run_of_text_error htext] at h
    cases h
    rfl
  | ok text =>
    rw [run_of_text htext] at h
    split at h
    · cases h
      rfl
    · split at h
      · cases h
        exact absurd rfl hfails
      · cases h
        rfl

theorem printed_of_failure {outcome : Outcome} (h : outcome.exitCode ≠ 0) :
    outcome.printed = "" := by
  cases outcome with
  | success printed => exact absurd rfl h
  | failure e => rfl
  | usage e => rfl

/-- What a run has done that succeeds: it printed the text of the job, or wrote it where it was told
to. -/
def HasPutOut (output : Option String) (text printed : String) (s s' : Store) : Prop :=
  match output with
  | none => printed = text ∧ s' = s
  | some path => printed = "" ∧ IsWritten path (.bytes text.toUTF8) s s'

theorem hasPutOut_of_run {printed : String} (h : job.run s = (.success printed, s')) :
    ∃ text, job.text (s.read job.input) = .ok text ∧ HasPutOut job.output text printed s s' := by
  cases htext : job.text (s.read job.input) with
  | error e =>
    rw [run_of_text_error htext] at h
    cases h
  | ok text =>
    refine ⟨text, rfl, ?_⟩
    rw [run_of_text htext] at h
    unfold HasPutOut
    split at h
    · cases h
      exact ⟨rfl, rfl⟩
    · split at h
      · rename_i hwrite
        cases h
        exact ⟨rfl, Store.isWritten_of_write hwrite⟩
      · cases h

/-- A run that fails to read, to decode or to render prints nothing and leaves the store as it was;
so does every run that fails.  A run that succeeds has put out the rendered tree and a newline:
where it was told to write, exactly what the same run prints that was not told so, and nothing else
has changed. -/
theorem run_allOrNothing (job : Job) (s : Store) :
    (∀ e, job.tree (s.read job.input) = .error e → job.run s = (.failure e, s)) ∧
      (∀ root e, job.tree (s.read job.input) = .ok root →
        job.format.render job.pretty job.maxDepth root = .error e →
          job.run s = (.failure (.schema e), s)) ∧
      (∀ outcome s', job.run s = (outcome, s') → outcome.exitCode ≠ 0 →
        outcome.printed = "" ∧ s' = s) ∧
      ∀ printed s', job.run s = (.success printed, s') →
        ∃ root rendered, job.tree (s.read job.input) = .ok root ∧
          job.format.render job.pretty job.maxDepth root = .ok rendered ∧
          { job with output := none }.run s = (.success (rendered ++ "\n"), s) ∧
          HasPutOut job.output (rendered ++ "\n") printed s s' := by
  refine ⟨fun e h => ?_, fun root e htree h => ?_, fun outcome s' h hfails => ?_,
    fun printed s' h => ?_⟩
  · exact run_of_text_error (text_of_tree_error h)
  · exact run_of_text_error (text_of_render_error htree h)
  · exact ⟨printed_of_failure hfails, eq_of_run_failure h hfails⟩
  · obtain ⟨text, htext, hput⟩ := hasPutOut_of_run h
    obtain ⟨root, rendered, htree, hrender, rfl⟩ := text_eq_ok_iff.mp htext
    -- The text depends on the input and the form of output, not on where it goes.
    have hprints : { job with output := none }.text (s.read job.input) =
        .ok (rendered ++ "\n") := htext
    exact ⟨root, rendered, htree, hrender, run_of_text hprints, hput⟩

/-- A store with a tree in its raw form, and a job that writes over it. -/
def rawStore : Store :=
  ⟨[({ names := ["in.json"] },
    .bytes "\x7b\"name\":\"row\",\"children\":[\x7b\"name\":\"a\",\"physical_type\":1\x7d]\x7d".toUTF8)]⟩

/-- A job that puts its text in place of its input. -/
def inPlaceJob : Job :=
  { subcommand := .renderRaw, input := "in.json", pretty := true, output := some "./in.json" }

theorem run_inPlaceJob : (inPlaceJob.run rawStore).1 = .success "" ∧
    ∃ root rendered, inPlaceJob.tree (rawStore.read inPlaceJob.input) = .ok root ∧
      inPlaceJob.format.render inPlaceJob.pretty inPlaceJob.maxDepth root = .ok rendered ∧
      { inPlaceJob with output := none }.run rawStore = (.success (rendered ++ "\n"), rawStore) ∧
      HasPutOut inPlaceJob.output (rendered ++ "\n") "" rawStore (inPlaceJob.run rawStore).2 := by
  have h : (inPlaceJob.run rawStore).1 = .success "" := by decide +kernel
  exact ⟨h, (run_allOrNothing inPlaceJob rawStore).2.2.2 _ _ (Prod.ext h rfl)⟩

end ParquetStruct.Command
