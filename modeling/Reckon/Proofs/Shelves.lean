import Reckon.Proofs.Traversals
import Reckon.Runner

/-!
# Suites found again by name

The suites of a shelf are found by directory (`Shelf.mem_suites_iff`), but to be
run each is looked up again, under the name that it gives itself. What the second
lookup finds is the suite whose directory has that name, or nothing at all
(`Shelf.load_eq_find?`). So there is a run for every suite, in order, and it is
about the suite itself if that is found under its name, which one named after its
directory is. Any other one may be left out, its place taken by another suite, or
by a report without cases (`runAllSuites_contents`).

That is, if the runs come to an end. An expression that is no text stops them, and so
does an outside that refuses what they print or save, and the first of what stops them
is their error (`Suite.obstacleUnder?`). A suite that is not found under its name has
no say in it, since it is never run.
-/

namespace Reckon

/-! ## Cases -/

/-- **A case as it is loaded**: it has two parts, and the second stands for a
number. -/
def RawCase.IsLoaded (raw : RawCase) (c : Json × Float) : Prop :=
  ∃ expected, raw = [c.1, expected] ∧ expected.toNumber = .ok c.2

theorem RawCase.load_eq_ok_iff {raw : RawCase} {c : Json × Float} :
    raw.load = .ok c ↔ raw.IsLoaded c := by
  constructor
  · intro h
    match raw with
    | [expression, expected] =>
      obtain ⟨x, hx, hc⟩ := bind_eq_ok_iff.mp h
      obtain rfl := Except.ok.inj hc
      exact ⟨expected, rfl, mapError_eq_ok_iff.mp hx⟩
    | [] | [_] | _ :: _ :: _ :: _ => exact nomatch h
  · rintro ⟨expected, rfl, hnumber⟩
    rw [RawCase.load, hnumber]
    rfl

namespace Suite

theorem misfit?_eq_none_iff {s : Suite} :
    s.misfit? = none ↔ ∀ c ∈ s.entries, ∃ text, c.1.text? = some text := by
  rw [misfit?, List.findSome?_eq_none_iff]
  refine forall₂_congr fun c _ => ?_
  cases c.1.text? with
  | none => exact iff_of_false nofun nofun
  | some text => exact iff_of_true rfl ⟨text, rfl⟩

theorem mem_cases_iff {s : Suite} {c : String × Float} :
    c ∈ s.cases ↔ ∃ d ∈ s.entries, d.1.text? = some c.1 ∧ d.2 = c.2 := by
  rw [cases, List.mem_filterMap]
  refine exists_congr fun d => and_congr_right fun _ => ?_
  rw [Option.map_eq_some_iff]
  constructor
  · rintro ⟨text, htext, rfl⟩
    exact ⟨htext, rfl⟩
  · rintro ⟨htext, hexpected⟩
    exact ⟨c.1, htext, congrArg (Prod.mk c.1) hexpected⟩

/-- Where every expression is a text, the cases are all that the suite gives. -/
theorem map_cases {s : Suite} (h : s.misfit? = none) :
    s.cases.map (fun c => (some c.1, c.2)) = s.entries.map fun c => (c.1.text?, c.2) := by
  rw [cases, List.map_filterMap, ← List.filterMap_eq_map]
  refine List.filterMap_congr fun c hc => ?_
  obtain ⟨text, htext⟩ := misfit?_eq_none_iff.mp h c hc
  rw [Function.comp_apply, htext]
  rfl

end Suite

/-! ## Shelves -/

namespace Shelf

/-- **What a directory of the shelf offers**: under a name that can be imported, a
suite that can be read and gives its cases. -/
structure Offers (shelf : Shelf) (s : Suite) : Prop where
  isIdentifier : Text.isIdentifier s.directory = true
  found : ∃ name description cases,
    List.lookup s.directory shelf = some (.suite name description (some cases))
      ∧ s.name = name.getD s.directory ∧ s.description = description.getD ""
      ∧ List.Forall₂ RawCase.IsLoaded cases s.entries

variable {shelf : Shelf}

/-- **Loading a directory gives what it offers.** -/
theorem load_eq_some_iff {directory : String} {s : Suite} :
    shelf.load directory = .ok (some s) ↔ s.directory = directory ∧ shelf.Offers s := by
  rw [load]
  split
  · rename_i hname
    refine iff_of_false nofun ?_
    rintro ⟨rfl, h, _⟩
    rw [h] at hname
    exact Bool.false_ne_true hname
  · rename_i hname
    rw [Bool.not_eq_true', Bool.not_eq_false] at hname
    split
    · rename_i message hlookup
      refine iff_of_false nofun ?_
      rintro ⟨rfl, -, name, description, raws, hlookup', -⟩
      exact nomatch hlookup.symm.trans hlookup'
    · rename_i name description raws hlookup
      rw [bind_eq_ok_iff]
      simp only [mapM_eq_ok_iff, RawCase.load_eq_ok_iff]
      constructor
      · rintro ⟨cases, hcases, hs⟩
        obtain rfl := Option.some.inj (Except.ok.inj hs)
        exact ⟨rfl, hname, name, description, raws, hlookup, rfl, rfl, hcases⟩
      · rintro ⟨rfl, -, name', description', raws', hlookup', hs, hdescription, hcases⟩
        obtain ⟨rfl, rfl, hraws⟩ := Shelved.suite.inj
          (Option.some.inj (hlookup.symm.trans hlookup'))
        obtain rfl := Option.some.inj hraws
        refine ⟨s.entries, hcases, ?_⟩
        rw [← hs, ← hdescription]
        rfl
    · rename_i hlookup
      refine iff_of_false nofun ?_
      rintro ⟨rfl, -, name, description, raws, hlookup', -⟩
      exact hlookup _ _ _ hlookup'

theorem mem_directories_iff {directory : String} :
    directory ∈ shelf.directories ↔ ∃ held, (directory, held) ∈ shelf ∧ holdsSuite held = true := by
  rw [directories, List.mem_mergeSort, List.mem_map]
  constructor
  · rintro ⟨⟨_, held⟩, h, rfl⟩
    exact ⟨held, List.mem_filter.mp h⟩
  · rintro ⟨held, h⟩
    exact ⟨(directory, held), List.mem_filter.mpr h, rfl⟩

/-- What stands on a shelf under a name is among its entries. -/
theorem mem_of_lookup {directory : String} {held : Shelved}
    (h : List.lookup directory shelf = some held) : (directory, held) ∈ shelf := by
  obtain ⟨before, after, hshelf, -⟩ := List.lookup_eq_some_iff.mp h
  rw [hshelf]
  exact List.mem_append_right _ List.mem_cons_self

/-- A directory without a suite has nothing to load. -/
theorem load_of_not_mem_directories {directory : String} (h : directory ∉ shelf.directories) :
    shelf.load directory = .ok none := by
  rw [load]
  split
  · rfl
  · split
    · rename_i hlookup
      exact absurd (mem_directories_iff.mpr ⟨_, mem_of_lookup hlookup, rfl⟩) h
    · rename_i hlookup
      exact absurd (mem_directories_iff.mpr ⟨_, mem_of_lookup hlookup, rfl⟩) h
    · rfl

/-! ### All suites -/

variable {suites : List Suite}

theorem suites_eq_ok_iff : shelf.suites = .ok suites
    ↔ ∃ found, shelf.directories.mapM shelf.load = .ok found ∧ found.filterMap id = suites := by
  rw [Shelf.suites, bind_eq_ok_iff]
  exact exists_congr fun found => and_congr_right fun _ => ⟨Except.ok.inj, congrArg Except.ok⟩

/-- **The suites are found if every directory can be loaded.** -/
theorem exists_suites_eq_ok_iff :
    (∃ suites, shelf.suites = .ok suites) ↔ ∀ directory, ∃ r, shelf.load directory = .ok r := by
  simp only [suites_eq_ok_iff]
  rw [exists_comm]
  simp only [exists_and_left, exists_eq', and_true, exists_mapM_eq_ok_iff]
  refine ⟨fun h directory => ?_, fun h directory _ => h directory⟩
  by_cases hmem : directory ∈ shelf.directories
  · exact h directory hmem
  · exact ⟨none, load_of_not_mem_directories hmem⟩

variable (h : shelf.suites = .ok suites)
include h

/-- **The suites of a shelf are those that its directories offer.** -/
theorem mem_suites_iff {s : Suite} : s ∈ suites ↔ shelf.Offers s := by
  obtain ⟨found, hfound, rfl⟩ := suites_eq_ok_iff.mp h
  have hmem : s ∈ found.filterMap id ↔ some s ∈ found := by
    rw [List.mem_filterMap]
    exact ⟨fun ⟨_, hr, hs⟩ => hs ▸ hr, fun hs => ⟨some s, hs, rfl⟩⟩
  rw [hmem, mem_of_mapM_eq_ok hfound]
  simp only [load_eq_some_iff]
  refine ⟨fun ⟨_, _, _, hs⟩ => hs, fun hs => ⟨s.directory, ?_, rfl, hs⟩⟩
  obtain ⟨_, _, _, hlookup, _⟩ := hs.found
  exact mem_directories_iff.mpr ⟨_, mem_of_lookup hlookup, rfl⟩

/-- A directory offers one suite. -/
theorem eq_of_directory_eq {s t : Suite} (hs : s ∈ suites) (ht : t ∈ suites)
    (hdirectory : s.directory = t.directory) : s = t := by
  have hload := load_eq_some_iff.mpr ⟨hdirectory, (mem_suites_iff h).mp hs⟩
  have hload' := load_eq_some_iff.mpr ⟨rfl, (mem_suites_iff h).mp ht⟩
  exact Option.some.inj (Except.ok.inj (hload.symm.trans hload'))

/-- What holds between the directories, in their order, holds between the suites. -/
theorem pairwise_suites {R : String → String → Prop} (hR : shelf.directories.Pairwise R) :
    suites.Pairwise fun s t => R s.directory t.directory := by
  obtain ⟨found, hfound, rfl⟩ := suites_eq_ok_iff.mp h
  let S (r r' : Option Suite) : Prop := ∀ s ∈ r, ∀ t ∈ r', R s.directory t.directory
  have hpairwise : found.Pairwise S := by
    refine pairwise_of_mapM_eq_ok hfound hR fun hxy hx hy s hs t ht => ?_
    obtain rfl := hs
    obtain rfl := ht
    rw [(load_eq_some_iff.mp hx).1, (load_eq_some_iff.mp hy).1]
    exact hxy
  exact hpairwise.filterMap id fun r r' hrr s hs t ht => hrr s hs t ht

theorem find?_directory_eq_some_iff {name : String} {s : Suite} :
    (suites.find? fun t => t.directory == name) = some s ↔ s ∈ suites ∧ s.directory = name := by
  constructor
  · intro hfind
    have hname := List.find?_some hfind
    exact ⟨List.mem_of_find?_eq_some hfind, beq_iff_eq.mp hname⟩
  · rintro ⟨hs, hname⟩
    cases hfind : suites.find? fun t => t.directory == name with
    | none => exact absurd (beq_iff_eq.mpr hname) (List.find?_eq_none.mp hfind s hs)
    | some t =>
      have ht := List.find?_some hfind
      have hdirectory : t.directory = s.directory := (beq_iff_eq.mp ht).trans hname.symm
      exact congrArg some (eq_of_directory_eq h (List.mem_of_find?_eq_some hfind) hs hdirectory)

/-- **Looking up a name finds the suite whose directory has it**, if there is one. -/
theorem load_eq_find? (name : String) :
    shelf.load name = .ok (suites.find? fun s => s.directory == name) := by
  obtain ⟨r, hr⟩ := exists_suites_eq_ok_iff.mp ⟨suites, h⟩ name
  rw [hr]
  refine congrArg Except.ok (Option.ext fun s => ?_)
  rw [find?_directory_eq_some_iff h, mem_suites_iff h, and_comm, ← load_eq_some_iff, hr,
    Except.ok.injEq]

end Shelf

/-! ## Runs -/

/-- What a run is about: the suite of its report, and the expressions with the values
expected of them. -/
def SuiteRun.contents (run : SuiteRun) : String × List (Option String × Float) :=
  (run.report.suite, run.report.cases.map fun c => (some c.expression, c.expected))

namespace Suite

/-- What a suite asks for: its name, and its expressions, as far as they are texts, with
the values expected of them. -/
def contents (s : Suite) : String × List (Option String × Float) :=
  (s.name, s.entries.map fun c => (c.1.text?, c.2))

/-- **What is run under a name**, of some suites: the suite whose directory has it,
or nothing. -/
def runUnder (occasion : Occasion) (suites : List Suite) (reading : Nat) (name : String) :
    SuiteRun :=
  match suites.find? fun s => s.directory == name with
  | some s => s.run occasion reading
  | none => missingRun reading name

/-- What keeps the run under a name from its end, if anything does. -/
def obstacleUnder? (occasion : Occasion) (suites : List Suite) (name : String) :
    Option SuiteError :=
  match suites.find? fun s => s.directory == name with
  | some s => s.obstacle? occasion
  | none => (occasion.outside.event (missingLine name)).map .refused

/-- What the run under a name is about. -/
def contentsUnder (suites : List Suite) (name : String) : String × List (Option String × Float) :=
  match suites.find? fun s => s.directory == name with
  | some s => s.contents
  | none => (name, [])

theorem misfit?_of_obstacle? {occasion : Occasion} {s : Suite}
    (h : s.obstacle? occasion = none) : s.misfit? = none := by
  rw [obstacle?, Option.or_eq_none_iff, Option.or_eq_none_iff] at h
  exact Option.map_eq_none_iff.mp h.2.1

/-- **The run of a suite is about the suite**, if all of its expressions are texts. -/
theorem contents_run {s : Suite} (h : s.misfit? = none) (occasion : Occasion) (reading : Nat) :
    (s.run occasion reading).contents = s.contents := by
  have hcases : (s.run occasion reading).contents
      = (s.name, (s.cases.zipIdx.map Prod.fst).map fun c => (some c.1, c.2)) := by
    show (s.name, List.map _ (List.map _ s.cases.zipIdx)) = _
    rw [List.map_map, List.map_map]
    rfl
  rw [hcases, List.zipIdx_map_fst, map_cases h, contents]

theorem contents_runUnder {occasion : Occasion} {suites : List Suite} {name : String}
    (h : obstacleUnder? occasion suites name = none) (reading : Nat) :
    (runUnder occasion suites reading name).contents = contentsUnder suites name := by
  rw [obstacleUnder?] at h
  rw [runUnder, contentsUnder]
  cases hfind : suites.find? fun s => s.directory == name with
  | none => rfl
  | some s =>
    rw [hfind] at h
    exact contents_run (misfit?_of_obstacle? h) occasion reading

/-- **Is a suite found again under its name?** Some suite of that directory asks for
the same, or there is neither such a directory nor a case of the suite. -/
def IsFoundIn (suites : List Suite) (s : Suite) : Prop :=
  (∃ t ∈ suites, t.directory = s.name ∧ t.contents = s.contents)
    ∨ s.entries = [] ∧ ∀ t ∈ suites, t.directory ≠ s.name

variable {shelf : Shelf} {suites : List Suite} (h : shelf.suites = .ok suites)
include h

theorem contentsUnder_name_eq_iff (s : Suite) :
    contentsUnder suites s.name = s.contents ↔ s.IsFoundIn suites := by
  rw [contentsUnder]
  cases hfind : suites.find? fun t => t.directory == s.name with
  | some t =>
    obtain ⟨ht, hname⟩ := (Shelf.find?_directory_eq_some_iff h).mp hfind
    refine ⟨fun hcontents => .inl ⟨t, ht, hname, hcontents⟩, ?_⟩
    rintro (⟨u, hu, huname, hcontents⟩ | ⟨_, hnone⟩)
    · rwa [Shelf.eq_of_directory_eq h hu ht (huname.trans hname.symm)] at hcontents
    · exact absurd hname (hnone t ht)
  | none =>
    have hnone := List.find?_eq_none.mp hfind
    simp only [beq_iff_eq] at hnone
    constructor
    · intro hcontents
      exact .inr ⟨List.map_eq_nil_iff.mp (congrArg Prod.snd hcontents).symm, hnone⟩
    · rintro (⟨t, ht, hname, _⟩ | ⟨hentries, _⟩)
      · exact absurd hname (hnone t ht)
      · rw [contents, hentries]
        rfl

/-- Under the name of a suite that is named after its directory the suite itself is
run. -/
theorem find?_name {s : Suite} (hs : s ∈ suites) (hname : s.name = s.directory) :
    (suites.find? fun t => t.directory == s.name) = some s :=
  (Shelf.find?_directory_eq_some_iff h).mpr ⟨hs, hname.symm⟩

end Suite

section Runs

variable {occasion : Occasion} {suites : List Suite} (h : occasion.shelf.suites = .ok suites)
include h

theorem runSuite_of_obstacle {name : String} {e : SuiteError}
    (he : Suite.obstacleUnder? occasion suites name = some e) (reading : Nat) :
    runSuite occasion reading name = .error e := by
  rw [Suite.obstacleUnder?] at he
  rw [runSuite, Shelf.load_eq_find? h]
  cases hfind : suites.find? fun s => s.directory == name with
  | none =>
    rw [hfind] at he
    obtain ⟨message, hmessage, rfl⟩ := Option.map_eq_some_iff.mp he
    simp only [bind, Except.bind, hmessage]
  | some s =>
    rw [hfind] at he
    have hs : s.obstacle? occasion = some e := he
    simp only [bind, Except.bind, hs]

theorem runSuite_of_no_obstacle {name : String}
    (hname : Suite.obstacleUnder? occasion suites name = none) (reading : Nat) :
    runSuite occasion reading name = .ok (Suite.runUnder occasion suites reading name) := by
  rw [Suite.obstacleUnder?] at hname
  rw [runSuite, Shelf.load_eq_find? h, Suite.runUnder]
  cases hfind : suites.find? fun s => s.directory == name with
  | none =>
    rw [hfind] at hname
    simp only [bind, Except.bind, Option.map_eq_none_iff.mp hname]
    rfl
  | some s =>
    rw [hfind] at hname
    have hs : s.obstacle? occasion = none := hname
    simp only [bind, Except.bind, hs]
    rfl

/-- **The first thing that keeps a run from its end stops them all.** -/
theorem runSuites_of_obstacle {names : List String} {e : SuiteError}
    (he : names.findSome? (Suite.obstacleUnder? occasion suites) = some e) (reading : Nat) :
    runSuites occasion reading names = .error e := by
  induction names generalizing reading with
  | nil => exact nomatch he
  | cons name names ih =>
    rw [runSuites]
    rw [List.findSome?_cons] at he
    cases hname : Suite.obstacleUnder? occasion suites name with
    | some e' =>
      rw [hname] at he
      rw [runSuite_of_obstacle h hname]
      exact congrArg Except.error (Option.some.inj he)
    | none =>
      rw [hname] at he
      rw [runSuite_of_no_obstacle h hname]
      show (do let runs ← runSuites occasion _ names; _) = _
      rw [ih he]
      rfl

/-- The suites of names are run one after the other, each on some reading of the
clock. -/
theorem exists_runSuites_eq {names : List String}
    (hnames : ∀ name ∈ names, Suite.obstacleUnder? occasion suites name = none) (reading : Nat) :
    ∃ runs, runSuites occasion reading names = .ok runs
      ∧ List.Forall₂ (fun name run => ∃ k, run = Suite.runUnder occasion suites k name)
        names runs := by
  induction names generalizing reading with
  | nil => exact ⟨[], rfl, .nil⟩
  | cons name names ih =>
    obtain ⟨hname, hrest⟩ := List.forall_mem_cons.mp hnames
    obtain ⟨runs, hruns, hforall⟩ :=
      ih hrest (Suite.runUnder occasion suites reading name).reading
    refine ⟨_ :: runs, ?_, .cons ⟨reading, rfl⟩ hforall⟩
    rw [runSuites, runSuite_of_no_obstacle h hname]
    show (do let runs ← runSuites occasion _ names; _) = _
    rw [hruns]
    rfl

theorem runAllSuites_of_obstacle {e : SuiteError}
    (he : (suites.findSome? fun s => Suite.obstacleUnder? occasion suites s.name) = some e) :
    runAllSuites occasion = .error e := by
  rw [runAllSuites, h]
  refine runSuites_of_obstacle h ?_ 0
  rwa [List.findSome?_map]

/-- **All suites are run**, in order: under the name of each, whatever is found there. -/
theorem exists_runAllSuites_eq
    (hrun : ∀ s ∈ suites, Suite.obstacleUnder? occasion suites s.name = none) :
    ∃ runs, runAllSuites occasion = .ok runs
      ∧ List.Forall₂ (fun s run => ∃ k, run = Suite.runUnder occasion suites k s.name)
        suites runs := by
  obtain ⟨runs, hruns, hforall⟩ := exists_runSuites_eq h (List.forall_mem_map.mpr hrun) 0
  refine ⟨runs, ?_, List.forall₂_map_left_iff.mp hforall⟩
  rw [runAllSuites, h]
  exact hruns

/-- Suites that are named after their directories are run themselves. -/
theorem exists_runAllSuites_eq_run (hname : ∀ s ∈ suites, s.name = s.directory)
    (hrun : ∀ s ∈ suites, s.obstacle? occasion = none) :
    ∃ runs, runAllSuites occasion = .ok runs
      ∧ List.Forall₂ (fun s run => ∃ k, run = s.run occasion k) suites runs := by
  have hfind (s : Suite) (hs : s ∈ suites) := Suite.find?_name h hs (hname s hs)
  obtain ⟨runs, hruns, hforall⟩ := exists_runAllSuites_eq h fun s hs => by
    rw [Suite.obstacleUnder?, hfind s hs]
    exact hrun s hs
  have hmem := (List.forall₂_and_left _ _).mpr ⟨fun s hs => hs, hforall⟩
  refine ⟨runs, hruns, hmem.imp fun s run ⟨hs, k, hk⟩ => ⟨k, ?_⟩⟩
  rw [hk, Suite.runUnder, hfind s hs]

end Runs

/-- A suite that calls itself what no directory is called. -/
def Suite.renamed : Suite where
  name := "b"
  description := ""
  directory := "a"
  entries := [(.str "1+1", Binary64.ofInt 2)]

/-- An occasion to run that suite alone. -/
def Occasion.renamed : Occasion where
  shelf := [("a", .suite (some "b") none (some [[.str "1+1", .int 2]]))]
  clock := .ticking 1
  moment := .ofSeconds 0

theorem suites_renamed : Occasion.renamed.shelf.suites = .ok [.renamed] := by
  have hdirectories : Occasion.renamed.shelf.directories = ["a"] := List.mergeSort_singleton "a"
  rw [Shelf.suites, hdirectories]
  rfl

end Reckon
