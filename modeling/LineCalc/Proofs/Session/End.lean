import LineCalc.Proofs.Session.Blanking
/-!
# How a run ends

Whether a run goes through depends on its file, on the lengths of its lines, on the output and on
the database, and never on what was complained about.

* `Session.runFile_eq_none_iff` : what it takes to go through;
* `Session.runLines_error` : the lines of a program stop the run if one of them is too long, and
  for no other reason;
* `Session.runText_without_complaints` : without the lines that are complained about, a program
  ends the same.
-/
namespace LineCalc

namespace Session

/-! ## Going through -/

/-- Runs a program and ends the run. -/
def runText (s : Session) (text : Bytes) (isCancelled : Bool) : Session × Option RunError :=
  match s.run text isCancelled with
  | (s, some e) => (s, some e)
  | (s, none) => s.finish isCancelled

/-- A program that can be read is run. -/
theorem runFile_of_read {s : Session} {path : Bytes} {place : Place} {text : Bytes}
    (hopen : s.workspace.openFile path = .ok place) (hread : Workspace.read path place = .ok text)
    (isCancelled : Bool) :
    s.runFile path isCancelled = { s with source := path }.runText text isCancelled := by
  simp only [runFile, hopen, hread]
  rfl

/-- The run of a file goes through: the file can be opened, the run of what it holds ends without an
error, the listing is written, and the database takes the variables, if there is to be one. -/
inductive GoesThrough (s : Session) (path : Bytes) (isCancelled : Bool) : Prop where
  | intro {place : Place} {text : Bytes} {ran listed : Session}
      (hopen : s.workspace.openFile path = .ok place)
      (hread : Workspace.read path place = .ok text)
      (hrun : { s with source := path }.run text isCancelled = (ran, none))
      (hlisted : ran.writeListing = .ok listed)
      (hstored : (listed.exportRows isCancelled).2 = none)

/-- A run ends without an error if the listing is written and the database takes the variables. -/
theorem finish_eq_none_iff (s : Session) (isCancelled : Bool) :
    (s.finish isCancelled).2 = none ↔
      ∃ listed, s.writeListing = .ok listed ∧ (listed.exportRows isCancelled).2 = none := by
  unfold finish
  cases s.writeListing with
  | error e => simp
  | ok listed => simp

/-- The error of a program that is run is its own, or else that of its end. -/
theorem runText_error (s : Session) (text : Bytes) (isCancelled : Bool) :
    (s.runText text isCancelled).2 =
      (s.run text isCancelled).2.or ((s.run text isCancelled).1.finish isCancelled).2 := by
  unfold runText
  split
  · next heq => rw [heq, Option.some_or]
  · next heq => rw [heq, Option.none_or]

/-- **What it takes to go through.** -/
theorem runFile_eq_none_iff (s : Session) (path : Bytes) (isCancelled : Bool) :
    (s.runFile path isCancelled).2 = none ↔ s.GoesThrough path isCancelled := by
  constructor
  · intro h
    cases hopen : s.workspace.openFile path with
    | error e =>
        -- the missing program is reported even if the rest goes through
        simp only [runFile, hopen] at h
        split at h
        · cases h
        · cases h
    | ok place =>
        cases hread : Workspace.read path place with
        | error e =>
            simp only [runFile, hopen, hread] at h
            cases h
        | ok text =>
            rw [runFile_of_read hopen hread, runText_error, Option.or_eq_none_iff] at h
            obtain ⟨hrun, hfinish⟩ := h
            obtain ⟨listed, hlisted, hstored⟩ := (finish_eq_none_iff _ isCancelled).1 hfinish
            exact .intro hopen hread (Prod.ext rfl hrun) hlisted hstored
  · rintro ⟨hopen, hread, hrun, hlisted, hstored⟩
    rw [runFile_of_read hopen hread, runText_error, hrun, Option.none_or]
    exact (finish_eq_none_iff _ isCancelled).2 ⟨_, hlisted, hstored⟩

/-! ## What stops a run -/

/-- **The lines of a program stop a run only by their length.** -/
theorem runLines_error (lines : List Bytes) : ∀ (s : Session) (number : Nat),
    (s.runLines false number lines).2 =
      if ∀ line ∈ lines, line.length < lineLimit then none else some .lineTooLong := by
  induction lines with
  | nil => exact fun s number => rfl
  | cons line lines ih =>
      intro s number
      rw [runLines]
      by_cases hline : line.length < lineLimit
      · rw [if_neg (Nat.not_le.2 hline), if_neg (by simp), ih]
        simp [hline]
      · rw [if_pos (Nat.not_lt.1 hline)]
        simp [hline]

/-- The same of the lines between the line breaks of a text. -/
theorem run_error (s : Session) (text : Bytes) : (s.run text false).2 =
    if ∀ line ∈ Bytes.splitAt 0x0a text, line.length < lineLimit then none
    else some .lineTooLong := by
  rw [run, runLines_error]
  simp only [length_lt_of_programLines]

/-! ## What the end looks at -/

/-- The session goes on with the run of another: with the same options, identity, program and files,
and with an output of the same size. -/
structure Continues (s s' : Session) : Prop where
  options : s'.options = s.options
  runId : s'.runId = s.runId
  source : s'.source = s.source
  workspace : s'.workspace = s.workspace
  limit : s'.output.limit = s.output.limit

/-- Writing keeps the size of the output. -/
theorem limit_foldl_write (pieces : List Bytes) (o : Output) :
    (pieces.foldl Output.write o).limit = o.limit := by
  induction pieces generalizing o with
  | nil => rfl
  | cons piece pieces ih =>
      rw [List.foldl_cons, ih]
      unfold Output.write Output.write?
      extract_lets size
      split
      · rfl
      · rfl

/-- A line goes on with the run. -/
theorem runLine_continues (s : Session) (number : Nat) (line : Bytes) :
    s.Continues (s.runLine number line) := by
  obtain ⟨store, hstore, log, -, h⟩ := exists_runLine ⟨s, number, line⟩
  have h : s.runLine number line = _ := h
  rw [h]
  exact ⟨rfl, rfl, rfl, rfl, limit_foldl_write _ _⟩

/-- So do all lines. -/
theorem runLines_continues (isCancelled : Bool) (lines : List Bytes) :
    ∀ (s : Session) (number : Nat), s.Continues (s.runLines isCancelled number lines).1 := by
  induction lines with
  | nil => exact fun s number => ⟨rfl, rfl, rfl, rfl, rfl⟩
  | cons line lines ih =>
      intro s number
      unfold runLines
      split
      · exact ⟨rfl, rfl, rfl, rfl, rfl⟩
      · split
        · exact ⟨rfl, rfl, rfl, rfl, rfl⟩
        · have hline : s.Continues (if (Text.trim line).isEmpty then s
              else s.runLine number (Text.trim line)) := by
            split
            · exact ⟨rfl, rfl, rfl, rfl, rfl⟩
            · exact s.runLine_continues number (Text.trim line)
          have hrest := ih (if (Text.trim line).isEmpty then s
            else s.runLine number (Text.trim line)) (number + 1)
          exact ⟨hrest.options.trans hline.options, hrest.runId.trans hline.runId,
            hrest.source.trans hline.source, hrest.workspace.trans hline.workspace,
            hrest.limit.trans hline.limit⟩

/-- Why the variables are not stored. -/
theorem exportRows_error (s : Session) (isCancelled : Bool) : (s.exportRows isCancelled).2 =
    if s.options.exportDb.isEmpty then none
    else (s.workspace.store s.options.exportDb s.snapshot isCancelled).2.map
      (.exportFailed s.options.exportDb) := by
  unfold exportRows
  extract_lets path
  split
  · rfl
  · split
    · next heq =>
        rw [heq]
        rfl
    · next heq =>
        rw [heq]
        rfl

/-- An output that takes everything takes the listing. -/
theorem isOk_writeListing_of_limit_eq_none {s : Session} (h : s.output.limit = none) :
    s.writeListing.isOk = true := by
  have hwrite : ∃ o, s.output.write? s.listing.1 = some o := by
    unfold Output.write?
    rw [h]
    exact ⟨_, rfl⟩
  obtain ⟨o, ho⟩ := hwrite
  unfold writeListing
  split
  · rfl
  · rw [ho]
    rfl

/-- Why a run ends with an error: the listing is refused, or else the variables are not stored. -/
theorem finish_error (s : Session) (isCancelled : Bool) : (s.finish isCancelled).2 =
    if s.writeListing.isOk then (s.exportRows isCancelled).2 else some s.listing.2 := by
  unfold finish writeListing
  split
  · next heq =>
      split at heq
      · cases heq
      · next hdump =>
          split at heq
          · cases heq
          · cases heq
            rw [if_neg hdump]
            rfl
  · next listed heq =>
      have hsame : (listed.exportRows isCancelled).2 = (s.exportRows isCancelled).2 := by
        rw [exportRows_error, exportRows_error]
        split at heq
        · cases heq
          rfl
        · split at heq
          · cases heq
            rfl
          · cases heq
      rw [hsame, heq]
      rfl

/-- The error of a listing that is refused. -/
theorem listing_snd (s : Session) :
    s.listing.2 = if s.options.dump = .yaml then .documentRefused else .dumpRefused := by
  unfold listing
  split
  · next h => rw [h, if_pos rfl]
  · next h => rw [if_neg h]

/-- Whether a run ends with an error depends on nothing else than that, the table and whether the
listing is written. -/
theorem finish_congr {s s₁ s₂ : Session} (h₁ : s.Continues s₁) (h₂ : s.Continues s₂)
    (hlisting : s₂.writeListing.isOk = s₁.writeListing.isOk) (htable : s₂.table = s₁.table)
    (isCancelled : Bool) : (s₂.finish isCancelled).2 = (s₁.finish isCancelled).2 := by
  rw [finish_error, finish_error, hlisting, exportRows_error, exportRows_error, snapshot, snapshot,
    listing_snd, listing_snd, h₁.options, h₂.options, h₁.workspace, h₂.workspace, h₁.runId,
    h₂.runId, h₁.source, h₂.source, htable]

/-! ## Without complaints -/

/-- The lines of a program are the first of those between its line breaks. -/
theorem programLines_isPrefix (text : Bytes) : programLines text <+: Bytes.splitAt 0x0a text := by
  simp only [programLines]
  split
  · exact List.dropLast_prefix _
  · exact List.prefix_rfl

/-- Some lines that a run executes are complained about, and blank ones are put in their places. -/
structure Silences (other? : Nat → Option Bytes) (s : Session) (text : Bytes) (isCancelled : Bool) :
    Prop where
  blank : ∀ i l, other? i = some l → IsBlankLine l
  complained : ∀ i, (other? i).isSome →
    ∃ v ∈ s.announce.executed isCancelled 1 (programLines text),
      v.number = i ∧ v.step.diagnostic? ≠ none

variable {other? : Nat → Option Bytes} {s : Session} {text : Bytes}

/-- Nothing is replaced in a run that is cancelled. -/
theorem Silences.run_cancelled (h : Silences other? s text true) :
    s.run (replaceLines other? text) true = s.run text true := by
  have hnone : other? = fun _ => none := by
    funext i
    by_contra hi
    obtain ⟨v, hv, -⟩ := h.complained i (Option.isSome_iff_ne_none.2 hi)
    cases hv
  have hlines : programLines (replaceLines other? text) = programLines text := by
    have hsplit := splitAt_replaceLines h.blank text
    have hsame : replaced other? 1 (Bytes.splitAt 0x0a text) = Bytes.splitAt 0x0a text := by
      rw [hnone, replaced]
      simp
    rw [hsame] at hsplit
    simp only [programLines, hsplit]
  rw [run, run, hlines]

/-- A line that is replaced is not too long. -/
theorem Silences.length_lt (h : Silences other? s text false) {i : Nat} {line : Bytes}
    (hline : (Bytes.splitAt 0x0a text)[i]? = some line) (hi : (other? (i + 1)).isSome) :
    line.length < lineLimit := by
  obtain ⟨v, hv, hnumber, -⟩ := h.complained (i + 1) hi
  obtain ⟨-, line', hline', -⟩ := visits_line _ _ _ v hv
  rw [hnumber, Nat.add_sub_cancel] at hline'
  have hprefix := (List.takeWhile_prefix (·.length < lineLimit)).trans (programLines_isPrefix text)
  obtain ⟨rest, hrest⟩ := hprefix
  have hsame : some line' = some line := by
    rw [← hline, ← hrest, List.getElem?_append_left (List.getElem?_eq_some_iff.1 hline').1, hline']
  cases hsame
  simpa using List.mem_takeWhile_imp (List.mem_of_getElem? hline')

/-- The line in the place of another. -/
theorem getElem?_replaced (other? : Nat → Option Bytes) (number : Nat) (lines : List Bytes)
    (i : Nat) :
    (replaced other? number lines)[i]? = lines[i]?.map fun l => (other? (number + i)).getD l := by
  rw [replaced, List.getElem?_map, List.getElem?_zipIdx, Option.map_map]
  rfl

/-- The other lines are as long as they were. -/
theorem Silences.error_eq (h : Silences other? s text false) :
    (s.run (replaceLines other? text) false).2 = (s.run text false).2 := by
  have hshort : (∀ line ∈ replaced other? 1 (Bytes.splitAt 0x0a text), line.length < lineLimit) ↔
      ∀ line ∈ Bytes.splitAt 0x0a text, line.length < lineLimit := by
    constructor
    · intro hall line hline
      obtain ⟨i, hi⟩ := List.mem_iff_getElem?.1 hline
      by_cases hother : (other? (1 + i)).isSome
      · rw [Nat.add_comm] at hother
        exact h.length_lt hi hother
      · apply hall line
        apply List.mem_of_getElem? (i := i)
        rw [getElem?_replaced, hi, Option.map_some, Option.not_isSome_iff_eq_none.1 hother,
          Option.getD_none]
    · exact fun hall => forall_mem_replaced hall fun i l hl => (h.blank i l hl).length_lt
  rw [run_error, run_error, splitAt_replaceLines h.blank]
  simp only [hshort]

/-- What is replaced left no trace. -/
theorem Silences.isFleeting (h : Silences other? s text false)
    (hshort : ∀ line ∈ programLines text, line.length < lineLimit) :
    ∀ v ∈ s.announce.visits 1 (programLines text), (other? v.number).isSome → v.IsFleeting := by
  have hexecuted : s.announce.executed false 1 (programLines text) =
      s.announce.visits 1 (programLines text) := by
    have hall : (programLines text).takeWhile (·.length < lineLimit) = programLines text :=
      List.takeWhile_eq_self_iff.2 (by simpa using hshort)
    rw [executed, if_neg (by decide), hall]
  have hnodup : ((s.announce.visits 1 (programLines text)).map Visit.number).Nodup := by
    rw [List.Nodup, List.pairwise_map]
    exact (visits_pairwise _ _ _).2.imp Nat.ne_of_lt
  intro v hv hi
  obtain ⟨u, hu, hnumber, hcomplaint⟩ := h.complained v.number hi
  rw [hexecuted] at hu
  -- there is one visit for each number, so the complaint is about this line
  rw [List.inj_on_of_nodup_map hnodup hu hv hnumber] at hcomplaint
  exact .inr hcomplaint

/-- The table is the same without lines that were complained about. -/
theorem Silences.table_eq (h : Silences other? s text false)
    (hshort : ∀ line ∈ programLines text, line.length < lineLimit) :
    (s.run (replaceLines other? text) false).1.table = (s.run text false).1.table := by
  have hshort' : ∀ line ∈ programLines (replaceLines other? text), line.length < lineLimit := by
    rw [length_lt_of_programLines, splitAt_replaceLines h.blank]
    exact forall_mem_replaced (length_lt_of_programLines.1 hshort)
      fun i l hl => (h.blank i l hl).length_lt
  have hfleeting := h.isFleeting hshort
  rw [visits_programLines] at hfleeting
  rw [(run_visits hshort s).1, (run_visits hshort' s).1, visits_programLines, visits_programLines,
    splitAt_replaceLines h.blank]
  exact (visits_replaced h.blank _ s.announce s.announce 1 rfl rfl hfleeting).2

/-- Whether the listing is written is the same without some lines, as it always is on an output that
takes everything. -/
def ListsAlike (s : Session) (text text' : Bytes) (isCancelled : Bool) : Prop :=
  s.output.limit = none ∨ (s.run text' isCancelled).1.writeListing.isOk =
    (s.run text isCancelled).1.writeListing.isOk

/-- The listings are written alike, then. -/
theorem ListsAlike.isOk_eq {text' : Bytes} {isCancelled : Bool}
    (h : s.ListsAlike text text' isCancelled) :
    (s.run text' isCancelled).1.writeListing.isOk =
      (s.run text isCancelled).1.writeListing.isOk := by
  have hlimit : ∀ text, (s.run text isCancelled).1.output.limit = s.output.limit := by
    intro text
    rw [← output_announce s]
    exact (runLines_continues isCancelled _ s.announce 1).limit
  rcases h with h | h
  · rw [isOk_writeListing_of_limit_eq_none ((hlimit text).trans h),
      isOk_writeListing_of_limit_eq_none ((hlimit text').trans h)]
  · exact h

/-- **Without the lines that are complained about a program ends the same**, if only the listing is
written alike: complaints are no reason for an error, whatever they are and how many. -/
theorem runText_without_complaints {isCancelled : Bool} (h : Silences other? s text isCancelled)
    (hlisting : s.ListsAlike text (replaceLines other? text) isCancelled) :
    (s.runText (replaceLines other? text) isCancelled).2 = (s.runText text isCancelled).2 := by
  cases isCancelled with
  | true => rw [runText, runText, h.run_cancelled]
  | false =>
      rw [runText_error, runText_error, h.error_eq]
      cases hrun : (s.run text false).2 with
      | some e => rw [Option.some_or, Option.some_or]
      | none =>
          have hshort : ∀ line ∈ programLines text, line.length < lineLimit := by
            by_contra hlong
            rw [run_error, if_neg (by rwa [← length_lt_of_programLines])] at hrun
            cases hrun
          rw [Option.none_or, Option.none_or]
          exact finish_congr (runLines_continues false _ s.announce 1)
            (runLines_continues false _ s.announce 1) hlisting.isOk_eq (h.table_eq hshort) false

end Session

end LineCalc
