import Reckon.Proofs.Shelves
import Reckon.Proofs.Zeros
import Reckon.Program

/-!
# Checks

A check runs all suites and ends with 0 if they pass. Between the shelf and the exit
code stand the search for suites, a second lookup by name, a report on each run with
its counts and verdict, and the scorecard. On a shelf whose suites are named after
their directories and whose cases can be loaded (`Shelf.IsRegular`) nothing on this
way is lost: the check ends with 0 just if there is a suite, every suite has cases,
and every case has the value that is expected of it, and the scorecard says of each
suite what its own cases say (`Program.run_check`).

There is a scorecard if the check comes so far. It breaks off, and ends with 1, if a
suite fails while it is read, and at an expression that is no text. That the outside
takes what is printed and saved is assumed (`Occasion.Takes`); the names in it are
identifiers, and everything else in it is escaped.

Only the cells for the time depend on anything but the shelf. `Suite.verdict`,
`Suite.row` and `Suite.failureLines` are what a report says of a suite, by its cases
alone.
-/

namespace Reckon

/-! ## Paths of reports -/

section Paths

theorem Path.mem_of_mem_splitNames {cs name : List Char} (h : name ∈ splitNames cs) {c : Char}
    (hc : c ∈ name) : c ∈ cs := by
  induction cs generalizing name with
  | nil =>
    rw [splitNames, List.mem_singleton] at h
    exact h ▸ hc
  | cons d cs ih =>
    rw [splitNames] at h
    split at h
    · rcases List.mem_cons.mp h with rfl | h
      · exact absurd hc List.not_mem_nil
      · exact List.mem_cons_of_mem d (ih h hc)
    · split at h
      · rw [List.mem_singleton] at h
        rw [h, List.mem_singleton] at hc
        exact hc ▸ List.mem_cons_self
      · rename_i first names hsplit
        rcases List.mem_cons.mp h with rfl | h
        · rcases List.mem_cons.mp hc with rfl | hc
          · exact List.mem_cons_self
          · exact List.mem_cons_of_mem d (ih (hsplit ▸ List.mem_cons_self) hc)
        · exact List.mem_cons_of_mem d (ih (hsplit ▸ List.mem_cons_of_mem first h) hc)

/-- There is a path for a text without null characters. -/
theorem Path.isPossible_ofString {s : String} (h : '\x00' ∉ s.toList) :
    (Path.ofString s).isPossible = true := by
  rw [isPossible, List.all_eq_true]
  intro name hname
  obtain ⟨cs, hcs, rfl⟩ := List.mem_map.mp (List.mem_of_mem_filter hname)
  rw [Bool.not_eq_true', String.toList_ofList, ← Bool.not_eq_true, List.contains_iff_mem]
  exact fun hc => h (mem_of_mem_splitNames hcs hc)

theorem Path.isPossible_append {p q : Path} (hp : p.isPossible = true)
    (hq : q.isPossible = true) : (p.append q).isPossible = true := by
  rw [append]
  split
  · rw [isPossible, List.all_append, Bool.and_eq_true]
    exact ⟨hp, hq⟩
  · exact hq

/-- No part of an identifier is a null character. -/
theorem Text.not_mem_of_isIdentifier {s : String} (h : isIdentifier s = true) :
    '\x00' ∉ s.toList := by
  rw [isIdentifier] at h
  have hstart : startsIdentifier '\x00' = false := by decide
  have hpart : continuesIdentifier '\x00' = false := by decide
  intro hmem
  cases hs : s.toList with
  | nil =>
    rw [hs] at hmem
    exact List.not_mem_nil hmem
  | cons c cs =>
    rw [hs] at h hmem
    obtain ⟨hc, hcs⟩ := Bool.and_eq_true_iff.mp h
    rcases List.mem_cons.mp hmem with rfl | hmem
    · exact Bool.false_ne_true (hstart.symm.trans hc)
    · exact Bool.false_ne_true (hpart.symm.trans (List.all_eq_true.mp hcs _ hmem))

theorem Moment.not_mem_stamp (m : Moment) : '\x00' ∉ m.stamp.toList := by
  have hnumber (n : Nat) : '\x00' ∉ (toString n).toList := by
    intro h
    rw [Nat.toString_eq_repr, Nat.toList_repr] at h
    exact Bool.false_ne_true (Nat.isDigit_of_mem_toDigits (by decide) (by decide) h)
  have htwo (n : Nat) : '\x00' ∉ (twoDigits n).toList := by
    rw [twoDigits]
    split
    · rw [String.toList_append, List.mem_append]
      exact not_or_intro (by decide) (hnumber n)
    · exact hnumber n
  simp only [stamp, String.toList_append, List.mem_append, hnumber, htwo, or_false, false_or]
  decide

/-- **The report on a suite has a path** if the suite is called by an identifier. -/
theorem isPossible_reportPath {directory : Path} {name : String} (m : Moment)
    (hdirectory : directory.isPossible = true) (hname : Text.isIdentifier name = true) :
    (reportPath directory name m.stamp).isPossible = true := by
  have hsuite := Path.isPossible_ofString (Text.not_mem_of_isIdentifier hname)
  have hstamp := Path.isPossible_ofString m.not_mem_stamp
  have hfile : (Path.ofString "report.json").isPossible = true := by decide
  show (((directory.append (.ofString name)).append (.ofString m.stamp)).append
    (.ofString "report.json")).isPossible = true
  exact Path.isPossible_append (Path.isPossible_append (Path.isPossible_append
    hdirectory hsuite) hstamp) hfile

end Paths

/-! ## Cases and reports -/

/-- **A case passes if both doubles are the same number.** -/
theorem Case.passes_iff {τ ν : Type} {c : Case τ ν} :
    c.passes = true ↔ Binary64.Same c.actual c.expected := by
  rw [passes, Binary64.Same]
  split
  · rename_i hexpected
    -- Nothing compares as equal to what is no number.
    have hbeq : ¬ (c.actual == c.expected) = true := by
      have hundefined : Float.nan = Binary64.undefined := by decide +kernel
      rw [Float.beq_iff_ne_nan_and_eq, hundefined]
      exact fun h => h.2.1 (Binary64.isNaN_iff.mp hexpected)
    rw [or_iff_right hbeq, and_iff_left hexpected]
  · rename_i hexpected
    exact (or_iff_left fun h => hexpected h.2).symm

namespace Suite

/-- Does an expression have the value that is expected of it? -/
def isMet (c : String × Float) : Bool :=
  decide (Binary64.Same (evaluate c.1) c.2)

/-- **The verdict on a suite**, by its cases. -/
def verdict (s : Suite) : SuiteVerdict :=
  if s.cases.isEmpty then .noCases
  else if s.cases.all isMet then .pass
  else if s.cases.any isMet then .partially
  else .fail

/-- **The row of a suite**, with the given cell for the time. -/
def row (s : Suite) (clock : String) : List String :=
  [s.name, s.verdict.markup,
    toString (s.cases.countP isMet) ++ "/" ++ toString s.cases.length, clock]

/-- **The lines of the cases that are not met**, in order. -/
def failureLines (s : Suite) : List String :=
  (s.cases.filter fun c => !isMet c).map fun c =>
    "  " ++ padRight 12 s.name ++ " " ++ Text.escapeMarkup (Text.quote c.1) ++ ": expected " ++
      showValue c.2 ++ ", got " ++ showValue (evaluate c.1)

/-- What is printed while a suite is run. -/
def announced (occasion : Occasion) (s : Suite) : List Event :=
  s.announcement :: occasion.saveIn.elim [] fun directory =>
    [savedLine (reportPath directory s.name occasion.moment.stamp)]

section Run

variable (s : Suite) (occasion : Occasion) (reading : Nat)

/-- The case of a suite at a place, as it is run. -/
def runAt (c : (String × Float) × Nat) : Case String Float :=
  runCase occasion.clock (reading + 1 + 2 * c.2) c.1.1 c.1.2

theorem cases_run :
    (s.run occasion reading).report.cases = s.cases.zipIdx.map (runAt occasion reading) :=
  rfl

theorem passes_comp_runAt : Case.passes ∘ runAt occasion reading = isMet ∘ Prod.fst := by
  funext c
  rw [Function.comp_apply, Function.comp_apply, isMet, Bool.eq_iff_iff, Case.passes_iff,
    decide_eq_true_iff]
  rfl

theorem total_run : (s.run occasion reading).report.total = s.cases.length := by
  rw [Report.total, cases_run, List.length_map, List.length_zipIdx]

theorem passed_run : (s.run occasion reading).report.passed = s.cases.countP isMet := by
  rw [Report.passed, cases_run, List.countP_map, passes_comp_runAt, ← List.countP_map,
    List.zipIdx_map_fst]

theorem failures_run : (s.run occasion reading).report.failures.map (failureLine s.name)
    = s.failureLines := by
  have hfails : (fun c : Case String Float => !c.passes) ∘ runAt occasion reading
      = (fun c => !isMet c) ∘ Prod.fst :=
    congrArg (Bool.not ∘ ·) (passes_comp_runAt occasion reading)
  rw [Report.failures, cases_run, List.filter_map, hfails, List.map_map, failureLines,
    ← List.zipIdx_map_fst 0 s.cases, List.filter_map, List.map_map, List.zipIdx_map_fst]
  rfl

theorem verdict_run : (s.run occasion reading).report.verdict = s.verdict := by
  have hnone : s.cases.length = 0 ↔ s.cases.isEmpty = true := by
    rw [List.isEmpty_iff, List.length_eq_zero_iff]
  have hall : s.cases.countP isMet = s.cases.length ↔ s.cases.all isMet = true := by
    rw [List.countP_eq_length, List.all_eq_true]
  have hany : 0 < s.cases.countP isMet ↔ s.cases.any isMet = true := by
    rw [List.countP_pos_iff, List.any_eq_true]
  rw [Report.verdict, verdict, total_run, passed_run]
  simp only [hnone, hall, hany]

theorem reportRow_run : reportRow (s.run occasion reading).report
    = s.row (wallClockText (s.run occasion reading).report.wallClock) := by
  rw [reportRow, row, verdict_run, passed_run, total_run]
  rfl

theorem console_run : (s.run occasion reading).activity.console = s.announced occasion := by
  rw [announced]
  cases hsave : occasion.saveIn with
  | none =>
    rw [run, hsave]
    rfl
  | some directory =>
    rw [run, hsave]
    rfl

end Run

/-- A suite passes if it has cases and all of them are met. -/
theorem verdict_eq_pass_iff {s : Suite} : s.verdict = .pass
    ↔ s.cases ≠ [] ∧ ∀ c ∈ s.cases, Binary64.Same (evaluate c.1) c.2 := by
  have hmet : s.cases.all isMet = true
      ↔ ∀ c ∈ s.cases, Binary64.Same (evaluate c.1) c.2 := by
    simp only [List.all_eq_true, isMet, decide_eq_true_iff]
  rw [verdict, ← hmet]
  cases hs : s.cases with
  | nil => exact iff_of_false nofun fun h => h.1 rfl
  | cons c cs =>
    rw [and_iff_right (List.cons_ne_nil c cs)]
    show (if (c :: cs).all isMet then _ else if (c :: cs).any isMet then _ else _) = _ ↔ _
    split_ifs with hall hany
    · exact iff_of_true rfl hall
    · exact iff_of_false nofun hall
    · exact iff_of_false nofun hall

/-- **Is an entry met?** Its expression is a text and has the value that is expected. -/
def EntryMet (c : Json × Float) : Prop :=
  ∃ text, c.1.text? = some text ∧ Binary64.Same (evaluate text) c.2

/-- Where every expression is a text, the cases are met just if the entries are. -/
theorem forall_cases_iff {s : Suite} (h : s.misfit? = none) :
    (s.cases ≠ [] ∧ ∀ c ∈ s.cases, Binary64.Same (evaluate c.1) c.2)
      ↔ s.entries ≠ [] ∧ ∀ c ∈ s.entries, EntryMet c := by
  have hnil : s.cases = [] ↔ s.entries = [] := by
    rw [← List.map_eq_nil_iff (l := s.cases), map_cases h, List.map_eq_nil_iff]
  have hmet : (∀ c ∈ s.cases, Binary64.Same (evaluate c.1) c.2)
      ↔ ∀ c ∈ s.entries, EntryMet c := by
    constructor
    · intro hcases c hc
      obtain ⟨text, htext⟩ := misfit?_eq_none_iff.mp h c hc
      exact ⟨text, htext, hcases (text, c.2) (mem_cases_iff.mpr ⟨c, hc, htext, rfl⟩)⟩
    · intro hentries c hc
      obtain ⟨d, hd, htext, hexpected⟩ := mem_cases_iff.mp hc
      obtain ⟨text, htext', hsame⟩ := hentries d hd
      obtain rfl := Option.some.inj (htext.symm.trans htext')
      exact hexpected ▸ hsame
  exact and_congr (not_congr hnil) hmet

/-- A suite with an expression that is no text is not met. -/
theorem misfit?_eq_none_of_forall {s : Suite} (h : ∀ c ∈ s.entries, EntryMet c) :
    s.misfit? = none :=
  misfit?_eq_none_iff.mpr fun c hc => (h c hc).imp fun _ => And.left

end Suite

/-! ## The scorecard -/

theorem Activity.console_concat (activities : List Activity) :
    (Activity.concat activities).console = activities.flatMap (·.console) := by
  have hfold (a : Activity) :
      (activities.foldl append a).console = a.console ++ activities.flatMap (·.console) := by
    induction activities generalizing a with
    | nil => exact (List.append_nil _).symm
    | cons b bs ih =>
      rw [List.foldl_cons, ih, List.flatMap_cons, ← List.append_assoc]
      rfl
  exact hfold {}

/-- **The scorecard of suites**, with the given cells for the times: a row each, in
order, then the lines of the cases that are not met. -/
def suiteCard (suites : List Suite) (clocks : List String) : List Event :=
  if suites.isEmpty then [.line "[yellow]No suite results.[/yellow]"]
  else
    let failures := suites.flatMap Suite.failureLines
    let details :=
      if failures.isEmpty then []
      else Event.line "\n[bold red]Failures[/bold red]" :: failures.map .line
    [.blank,
      .table {
        title := "exprcalc check"
        columns := ["Suite", "Verdict", "Passed", "Wall clock"]
        rows := List.zipWith Suite.row suites clocks }] ++ details ++ [.blank]

/-- **What a check of suites comes to**, if these are run one after the other. -/
structure IsCheckOf (occasion : Occasion) (suites : List Suite) (finish : Finish) : Prop where
  /-- It ends with 0 if there are suites, all of them have cases, and all of these are
  met. -/
  exit_eq_zero_iff : finish.exit = 0 ↔ suites ≠ []
    ∧ ∀ s ∈ suites, s.cases ≠ [] ∧ ∀ c ∈ s.cases, Binary64.Same (evaluate c.1) c.2
  /-- Otherwise it ends with 1. -/
  exit_eq_one_of_ne : finish.exit ≠ 0 → finish.exit = 1
  console : ∃ clocks, clocks.length = suites.length
    ∧ finish.activity.console
      = suites.flatMap (Suite.announced occasion) ++ suiteCard suites clocks

theorem Program.exitCode_eq_zero_iff {ok : Bool} : exitCode ok = 0 ↔ ok = true := by
  cases ok <;> decide

theorem Program.exitCode_eq_one_of_ne {ok : Bool} (h : exitCode ok ≠ 0) : exitCode ok = 1 := by
  cases ok
  · rfl
  · exact absurd rfl h

section Runs

variable {occasion : Occasion} {suites : List Suite} {runs : List SuiteRun}
  (h : List.Forall₂ (fun s run => ∃ k, run = s.run occasion k) suites runs)
include h

/-- What does not depend on the time is the same for the suites and for their runs. -/
theorem map_runs {γ : Type} {f : SuiteRun → γ} {g : Suite → γ}
    (hfg : ∀ s k, f (s.run occasion k) = g s) : runs.map f = suites.map g :=
  map_eq_of_forall₂ h fun s _ ⟨k, hk⟩ => hk ▸ hfg s k

theorem isEmpty_runs : runs.isEmpty = suites.isEmpty := by
  cases h <;> rfl

theorem rows_runs : runs.map (fun run => reportRow run.report)
    = List.zipWith Suite.row suites (runs.map fun run => wallClockText run.report.wallClock) := by
  induction h with
  | nil => rfl
  | cons hrun _ ih =>
    obtain ⟨k, rfl⟩ := hrun
    rw [List.map_cons, List.map_cons, List.zipWith_cons_cons, Suite.reportRow_run, ih]

theorem scorecard_runs : scorecard (runs.map (·.report))
    = suiteCard suites (runs.map fun run => wallClockText run.report.wallClock) := by
  have hfailures : (runs.map (·.report)).flatMap (fun r => r.failures.map (failureLine r.suite))
      = suites.flatMap Suite.failureLines := by
    rw [List.flatMap_map, List.flatMap_def, List.flatMap_def]
    exact congrArg List.flatten (map_runs h fun s k => s.failures_run occasion k)
  rw [scorecard, suiteCard, hfailures, List.isEmpty_map, isEmpty_runs h, List.map_map,
    ← rows_runs h]
  rfl

theorem exit_finishCheck_eq_zero_iff : (Program.finishCheck runs).exit = 0 ↔ suites ≠ []
    ∧ ∀ s ∈ suites, s.cases ≠ [] ∧ ∀ c ∈ s.cases, Binary64.Same (evaluate c.1) c.2 := by
  have hverdicts : runs.map (·.report.verdict) = suites.map Suite.verdict :=
    map_runs h fun s k => s.verdict_run occasion k
  have hpass : (runs.map (·.report)).all (fun r => r.verdict == .pass)
      = (suites.map Suite.verdict).all (· == .pass) := by
    rw [← hverdicts, List.all_map, List.all_map]
    rfl
  have hall : (suites.map Suite.verdict).all (· == .pass) = true
      ↔ ∀ s ∈ suites, s.cases ≠ [] ∧ ∀ c ∈ s.cases, Binary64.Same (evaluate c.1) c.2 := by
    rw [List.all_map, List.all_eq_true]
    refine forall₂_congr fun s _ => ?_
    rw [← Suite.verdict_eq_pass_iff]
    exact beq_iff_eq
  show Program.exitCode (!(runs.map (·.report)).isEmpty && (runs.map (·.report)).all _) = 0 ↔ _
  rw [Program.exitCode_eq_zero_iff, Bool.and_eq_true, hpass, hall, List.isEmpty_map,
    isEmpty_runs h, Bool.not_eq_true', ← Bool.not_eq_true, List.isEmpty_iff]

theorem isCheckOf_finishCheck : IsCheckOf occasion suites (Program.finishCheck runs) where
  exit_eq_zero_iff := exit_finishCheck_eq_zero_iff h
  exit_eq_one_of_ne := Program.exitCode_eq_one_of_ne
  console := by
    refine ⟨runs.map fun run => wallClockText run.report.wallClock, ?_, ?_⟩
    · rw [List.length_map, h.length_eq]
    · show (Activity.concat (runs.map (·.activity))).console ++ scorecard (runs.map (·.report)) = _
      rw [Activity.console_concat, List.flatMap_map, scorecard_runs h, List.flatMap_def,
        map_runs h fun s k => s.console_run occasion k]
      rfl

end Runs

/-! ## Shelves that lose nothing -/

namespace Shelf

/-- **A shelf whose suites are named after their directories** and whose cases can be
loaded. -/
structure IsRegular (shelf : Shelf) : Prop where
  /-- A suite gives no name, or that of its directory. -/
  named : ∀ {directory name description cases},
    (directory, Shelved.suite name description cases) ∈ shelf → name.getD directory = directory
  /-- A case has two parts, and the second stands for a number. -/
  accepted : ∀ {directory name description cases},
    (directory, Shelved.suite name description (some cases)) ∈ shelf →
      ∀ raw ∈ cases, ∃ c, RawCase.IsLoaded raw c

/-- **The suites of a shelf**: what its directories offer, in the order of their names,
and nothing twice if no two entries have the same name. -/
structure Lists (shelf : Shelf) (suites : List Suite) : Prop where
  mem_iff : ∀ s, s ∈ suites ↔ shelf.Offers s
  sorted : suites.Pairwise fun s t => ¬ t.directory < s.directory
  nodup : (shelf.map Prod.fst).Nodup → (suites.map (·.directory)).Nodup

variable {shelf : Shelf}

theorem sorted_directories : shelf.directories.Pairwise fun a b => ¬ b < a := by
  have hle (a b : String) : (!decide (b < a)) = true ↔ a ≤ b := by
    rw [Bool.not_eq_true', decide_eq_false_iff_not]
    rfl
  refine (List.pairwise_mergeSort (fun a b c hab hbc => ?_) (fun a b => ?_) _).imp fun h => ?_
  · exact (hle a c).mpr (String.le_trans ((hle a b).mp hab) ((hle b c).mp hbc))
  · rw [Bool.or_eq_true, hle, hle]
    exact String.le_total a b
  · exact (hle _ _).mp h

theorem nodup_directories (h : (shelf.map Prod.fst).Nodup) : shelf.directories.Nodup := by
  rw [directories, (List.mergeSort_perm _ _).nodup_iff]
  exact h.sublist (List.filter_sublist.map _)

theorem lists_suites {suites : List Suite} (h : shelf.suites = .ok suites) :
    shelf.Lists suites where
  mem_iff _ := mem_suites_iff h
  sorted := pairwise_suites h sorted_directories
  nodup hshelf := List.pairwise_map.mpr (pairwise_suites h (nodup_directories hshelf))

/-- **The suites of a regular shelf are found**, unless one fails while it is read. -/
theorem IsRegular.exists_suites_iff (h : shelf.IsRegular) :
    (∃ suites, shelf.suites = .ok suites) ↔ ∀ directory message,
      Text.isIdentifier directory = true →
        List.lookup directory shelf ≠ some (.failing message) := by
  rw [exists_suites_eq_ok_iff]
  refine forall_congr' fun directory => ?_
  rw [load]
  split
  · rename_i hname
    rw [Bool.not_eq_true'] at hname
    exact iff_of_true ⟨none, rfl⟩ fun _ htrue => absurd htrue (hname ▸ Bool.false_ne_true)
  · rename_i hname
    rw [Bool.not_eq_true', Bool.not_eq_false] at hname
    split
    · rename_i message hlookup
      refine iff_of_false ?_ fun hnone => hnone message hname hlookup
      rintro ⟨_, ⟨⟩⟩
    · rename_i name description cases hlookup
      obtain ⟨loaded, hloaded⟩ := exists_mapM_eq_ok_iff.mpr fun raw hraw => by
        obtain ⟨c, hc⟩ := h.accepted (mem_of_lookup hlookup) raw hraw
        exact ⟨c, RawCase.load_eq_ok_iff.mpr hc⟩
      rw [hloaded]
      refine iff_of_true ⟨_, rfl⟩ fun message _ hfailing => ?_
      cases hlookup.symm.trans hfailing
    · rename_i hother _
      exact iff_of_true ⟨none, rfl⟩ fun message _ => hother message

/-- What a regular shelf offers is named after its directory. -/
theorem IsRegular.name_eq (h : shelf.IsRegular) {s : Suite} (hs : shelf.Offers s) :
    s.name = s.directory := by
  obtain ⟨name, description, cases, hlookup, hname, -⟩ := hs.found
  exact hname.trans (h.named (mem_of_lookup hlookup))

/-- **The suites of a regular shelf** are what its directories offer, each under the
name of its own. -/
theorem IsRegular.lists_suites (h : shelf.IsRegular) {suites : List Suite}
    (hsuites : shelf.suites = .ok suites) :
    shelf.Lists suites ∧ ∀ s ∈ suites, s.name = s.directory := by
  have hlists := Shelf.lists_suites hsuites
  exact ⟨hlists, fun s hs => h.name_eq ((hlists.mem_iff s).mp hs)⟩

end Shelf

/-! ## Checks -/

/-- The occasion for a check, with the directory that is given for the reports. -/
def Surroundings.occasion (around : Surroundings) (saveIn : Option String) : Occasion where
  shelf := around.shelf
  clock := around.clock
  moment := around.moment
  saveIn := saveIn.map .ofString
  outside := around.outside

/-- **The outside takes what a check of suites prints and saves**, whatever the times
are that it shows. -/
structure Occasion.Takes (occasion : Occasion) (suites : List Suite) : Prop where
  printed : ∀ clocks : List String, clocks.length = suites.length →
    ∀ e ∈ suites.flatMap (Suite.announced occasion) ++ suiteCard suites clocks,
      occasion.outside.event e = none
  saved : ∀ directory ∈ occasion.saveIn, ∀ s ∈ suites,
    occasion.outside.file (reportPath directory s.name occasion.moment.stamp) = none

/-- **What a check of all suites comes to.** -/
structure IsCheck (around : Surroundings) (saveIn : Option String)
    (outcome : Except Failure Finish) : Prop where
  /-- It ends with 0 if there are suites, all of them have cases, and all of these are
  met. -/
  status_eq_zero_iff : Program.status outcome = 0 ↔ ∃ suites, around.shelf.suites = .ok suites
    ∧ suites ≠ [] ∧ ∀ s ∈ suites, s.entries ≠ [] ∧ ∀ c ∈ s.entries, Suite.EntryMet c
  /-- Otherwise it ends with 1. -/
  status_eq_one_of_ne : Program.status outcome ≠ 0 → Program.status outcome = 1
  /-- There are suites unless one fails while it is read. -/
  exists_suites_iff : (∃ suites, around.shelf.suites = .ok suites) ↔ ∀ directory message,
    Text.isIdentifier directory = true →
      List.lookup directory around.shelf ≠ some (.failing message)
  /-- They are those that the directories offer, and have their names. -/
  lists : ∀ suites, around.shelf.suites = .ok suites →
    around.shelf.Lists suites ∧ ∀ s ∈ suites, s.name = s.directory
  /-- If all of their expressions are texts, the check comes to its end. -/
  finishes : ∀ suites, around.shelf.suites = .ok suites → (∀ s ∈ suites, s.misfit? = none) →
    ∃ finish, outcome = .ok finish ∧ IsCheckOf (around.occasion saveIn) suites finish
  /-- The first one that is no text breaks it off. -/
  breaks_off : ∀ suites kind, around.shelf.suites = .ok suites →
    suites.findSome? Suite.misfit? = some kind → outcome = .error (.suite (.noText kind))

namespace Program

variable {around : Surroundings} {words : List String} {saveIn : Option String}
  (hwords : Command.read words = .ok (.check none saveIn))
include hwords

theorem run_eq_of_check : run around words
    = (do
      let finish ← (check (around.occasion saveIn) none).mapError Failure.suite
      return { finish with
        log := Log.shown (Settings.load around.environment).threshold
          finish.activity.records }) := by
  rw [run, hwords]
  rfl

end Program

/-! ### What keeps a check from its end -/

section Runs

variable {occasion : Occasion} {suites : List Suite} (htakes : occasion.Takes suites)
include htakes

/-- Only an expression that is no text keeps a suite from being run, if the report on
it has a path. -/
theorem Occasion.Takes.obstacle?_eq {s : Suite} (hs : s ∈ suites)
    (hpath : ∀ directory ∈ occasion.saveIn,
      (reportPath directory s.name occasion.moment.stamp).isPossible = true) :
    s.obstacle? occasion = s.misfit?.map .noText := by
  have hannounced (e : Event) (he : e ∈ s.announced occasion) :
      occasion.outside.event e = none :=
    htakes.printed (List.replicate suites.length "") List.length_replicate e
      (List.mem_append_left _ (List.mem_flatMap.mpr ⟨s, hs, he⟩))
  have hannouncement := hannounced s.announcement List.mem_cons_self
  rw [Suite.obstacle?, hannouncement, Option.map_none, Option.none_or]
  cases hsave : occasion.saveIn with
  | none => exact Option.or_none
  | some directory =>
    have hline : savedLine (reportPath directory s.name occasion.moment.stamp)
        ∈ s.announced occasion := by
      rw [Suite.announced, hsave]
      exact List.mem_cons_of_mem _ List.mem_cons_self
    rw [Option.bind_some, if_pos (hpath directory hsave), htakes.saved directory hsave s hs,
      hannounced _ hline]
    exact Option.or_none

/-- **What a check prints is taken**, if its suites are. -/
theorem Occasion.Takes.printed_eq {finish : Finish} (h : IsCheckOf occasion suites finish) :
    Program.printed occasion.outside finish = .ok finish := by
  obtain ⟨clocks, hclocks, hconsole⟩ := h.console
  have hnone : finish.activity.console.findSome? occasion.outside.event = none := by
    rw [hconsole]
    exact List.findSome?_eq_none_iff.mpr (htakes.printed clocks hclocks)
  rw [Program.printed, hnone]

end Runs

namespace Program

variable {around : Surroundings} {words : List String} {saveIn : Option String}
  {suites : List Suite} (hwords : Command.read words = .ok (.check none saveIn))
include hwords

/-- A check breaks off where its runs do. -/
theorem run_check_of_error {e : SuiteError}
    (he : runAllSuites (around.occasion saveIn) = .error e) :
    run around words = .error (.suite e) := by
  have hcheck : check (around.occasion saveIn) none = .error e := by
    show (do let runs ← runAllSuites _; printed _ (finishCheck runs)) = _
    rw [he]
    rfl
  rw [run_eq_of_check hwords, hcheck]
  rfl

/-- A check whose runs are those of its suites comes to what these say. -/
theorem exists_run_check_eq_ok {runs : List SuiteRun}
    (hruns : runAllSuites (around.occasion saveIn) = .ok runs)
    (hforall : List.Forall₂ (fun s run => ∃ k, run = s.run (around.occasion saveIn) k) suites runs)
    (htakes : (around.occasion saveIn).Takes suites) :
    ∃ finish, run around words = .ok finish
      ∧ IsCheckOf (around.occasion saveIn) suites finish := by
  have hfinish := isCheckOf_finishCheck hforall
  have hcheck : check (around.occasion saveIn) none = .ok (finishCheck runs) := by
    show (do let runs ← runAllSuites _; printed _ (finishCheck runs)) = _
    rw [hruns]
    exact htakes.printed_eq hfinish
  refine ⟨_, by rw [run_eq_of_check hwords, hcheck]; rfl, ?_⟩
  obtain ⟨hzero, hone, hconsole⟩ := hfinish
  exact ⟨hzero, hone, hconsole⟩

section Suites

variable (hsuites : around.shelf.suites = .ok suites)
  (hname : ∀ s ∈ suites, s.name = s.directory)
  (hobstacle : ∀ s ∈ suites, s.obstacle? (around.occasion saveIn) = s.misfit?.map .noText)
include hsuites hname hobstacle

/-- The first expression that is no text breaks a check off. -/
theorem run_check_of_misfit {kind : String}
    (hmisfit : suites.findSome? Suite.misfit? = some kind) :
    run around words = .error (.suite (.noText kind)) := by
  have hunder (s : Suite) (hs : s ∈ suites) :
      Suite.obstacleUnder? (around.occasion saveIn) suites s.name = s.misfit?.map .noText := by
    rw [Suite.obstacleUnder?, Suite.find?_name hsuites hs (hname s hs)]
    exact hobstacle s hs
  refine run_check_of_error hwords (runAllSuites_of_obstacle hsuites ?_)
  rw [findSome?_congr hunder]
  show suites.findSome? (Option.map SuiteError.noText ∘ Suite.misfit?) = _
  rw [← List.map_findSome?, hmisfit, Option.map_some]

variable (htakes : (around.occasion saveIn).Takes suites)
include htakes

/-- A check comes to its end if all expressions are texts. -/
theorem exists_run_check_of_texts (htexts : ∀ s ∈ suites, s.misfit? = none) :
    ∃ finish, run around words = .ok finish
      ∧ IsCheckOf (around.occasion saveIn) suites finish := by
  obtain ⟨runs, hruns, hforall⟩ := exists_runAllSuites_eq_run hsuites hname fun s hs => by
    rw [hobstacle s hs, htexts s hs, Option.map_none]
  exact exists_run_check_eq_ok hwords hruns hforall htakes

/-- **The status of a check of suites**, whether it comes to its end or not. -/
theorem status_run_check :
    (status (run around words) = 0
        ↔ suites ≠ [] ∧ ∀ s ∈ suites, s.entries ≠ [] ∧ ∀ c ∈ s.entries, Suite.EntryMet c)
      ∧ (status (run around words) ≠ 0 → status (run around words) = 1) := by
  cases hmisfit : suites.findSome? Suite.misfit? with
  | some kind =>
    rw [run_check_of_misfit hwords hsuites hname hobstacle hmisfit]
    refine ⟨iff_of_false Nat.one_ne_zero fun ⟨_, hmet⟩ => ?_, fun _ => rfl⟩
    have hnone : suites.findSome? Suite.misfit? = none :=
      List.findSome?_eq_none_iff.mpr fun s hs => Suite.misfit?_eq_none_of_forall (hmet s hs).2
    exact nomatch hmisfit.symm.trans hnone
  | none =>
    have htexts := List.findSome?_eq_none_iff.mp hmisfit
    obtain ⟨finish, hrun, hcheck⟩ :=
      exists_run_check_of_texts hwords hsuites hname hobstacle htakes htexts
    rw [hrun]
    refine ⟨hcheck.exit_eq_zero_iff.trans (and_congr_right fun _ => ?_),
      hcheck.exit_eq_one_of_ne⟩
    exact forall₂_congr fun s hs => Suite.forall_cases_iff (htexts s hs)

end Suites

omit hwords in
/-- On a regular shelf only an expression that is no text keeps a suite from being run. -/
theorem obstacle?_of_isRegular (hshelf : around.shelf.IsRegular)
    (hsave : ∀ directory ∈ saveIn, '\x00' ∉ directory.toList)
    (hsuites : around.shelf.suites = .ok suites)
    (htakes : (around.occasion saveIn).Takes suites) {s : Suite} (hs : s ∈ suites) :
    s.obstacle? (around.occasion saveIn) = s.misfit?.map .noText := by
  obtain ⟨hlists, hname⟩ := hshelf.lists_suites hsuites
  refine htakes.obstacle?_eq hs fun directory hdirectory => ?_
  obtain ⟨word, hword, rfl⟩ := Option.mem_map.mp hdirectory
  refine isPossible_reportPath _ (Path.isPossible_ofString (hsave word hword)) ?_
  rw [hname s hs]
  exact ((hlists.mem_iff s).mp hs).isIdentifier

/-- A check of a shelf whose suites are not found ends with 1. -/
theorem status_run_check_of_error {e : SuiteError} (he : around.shelf.suites = .error e) :
    status (run around words) = 1 := by
  have hruns : runAllSuites (around.occasion saveIn) = .error e := by
    rw [runAllSuites, show (around.occasion saveIn).shelf.suites = .error e from he]
    rfl
  rw [run_check_of_error hwords hruns]
  rfl

end Program

/-- Surroundings with a suite that is met beside a plain file, directories without a
suite that can be loaded, and a suite under a name that cannot be imported. -/
def Surroundings.mixed : Surroundings where
  environment := Environment.ofList []
  shelf := [
    ("2nd", .suite none none (some [])),
    ("drafts", .bare),
    ("notes", .file),
    ("old", .broken),
    ("sums", .suite (some "sums") none
      (some [[.str "1+1", .int 2], [.str "0/0", .float Binary64.undefined]])),
    ("texts", .suite none none none)]
  clock := .ticking 1
  moment := .ofSeconds 0
  content _ := .missing

theorem suites_mixed : Surroundings.mixed.shelf.suites
    = .ok [{
        name := "sums"
        description := ""
        directory := "sums"
        entries := [(.str "1+1", Binary64.ofInt 2), (.str "0/0", Binary64.undefined)] }] := by
  have hdirectories : Surroundings.mixed.shelf.directories = ["2nd", "old", "sums", "texts"] :=
    List.mergeSort_of_pairwise (by decide)
  rw [Shelf.suites, hdirectories]
  rfl

theorem isRegular_mixed : Surroundings.mixed.shelf.IsRegular where
  named h := by
    simp only [Surroundings.mixed, List.mem_cons, Prod.mk.injEq, Shelved.suite.injEq, reduceCtorEq,
      and_false, List.not_mem_nil, or_false, false_or] at h
    rcases h with ⟨rfl, rfl, -⟩ | ⟨rfl, rfl, -⟩ | ⟨rfl, rfl, -⟩ <;> rfl
  accepted h raw hraw := by
    simp only [Surroundings.mixed, List.mem_cons, Prod.mk.injEq, Shelved.suite.injEq, reduceCtorEq,
      and_false, List.not_mem_nil, or_false, false_or, Option.some.injEq] at h
    rcases h with ⟨-, -, -, rfl⟩ | ⟨-, -, -, rfl⟩
    · exact absurd hraw List.not_mem_nil
    · rcases List.mem_pair.mp hraw with rfl | rfl
      · exact ⟨(.str "1+1", Binary64.ofInt 2), _, rfl, rfl⟩
      · exact ⟨(.str "0/0", Binary64.undefined), _, rfl, rfl⟩

end Reckon
