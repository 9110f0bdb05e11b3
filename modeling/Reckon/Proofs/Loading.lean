import Mathlib
import Reckon.Listing
import Reckon.Proofs.Utf8
import Reckon.Proofs.Values
import Reckon.Report.Archive

/-!
# Saved reports loaded again

What is loaded from the file of a report is the report itself, its texts and
measurements now as the values that they were written as (`Report.loaded`). The
results of its cases come in two ways: as numbers, or by name if they have no
digits, and either way is read as the double that was written
(`toNumber_resultJson`); the measurements are numbers throughout, for which JSON
has names of its own here.

Three readers stand behind one another, of bytes, of JSON and of reports. Each
of them undoes what was written for it, so `LoadedReport.ofBytes_fileText` only
has to put them together.
-/

namespace Reckon

open Text (Letters)

/-! ## Results -/

/-- **A result is read as the double that it is**, whichever way it was
written. -/
theorem toNumber_resultJson (x : Float) : (resultJson x).toNumber = .ok x := by
  rw [resultJson]
  cases hx : Binary64.ofFloat x with
  | nan =>
    have htext : floatText x = "nan" := by rw [floatText, hx]
    rw [Binary64.eq_undefined_of_ofFloat hx] at htext ⊢
    dsimp only
    rw [htext]
    rfl
  | infinite negative =>
    have htext : floatText x = withMinus negative "inf".toList := by rw [floatText, hx]
    rw [Binary64.eq_infinity_of_ofFloat hx] at htext ⊢
    dsimp only
    rw [htext]
    cases negative <;> rfl
  | finite negative m e => rfl

theorem isReadable_resultJson {room : Nat} (x : Float) : Json.IsReadable room (resultJson x) := by
  rw [resultJson]
  split
  · exact .float x
  · exact .str (Letters.isString_ofString _)

/-! ## Members by name -/

namespace Json

theorem find?_cons (name n : String) (v : Json) (ms : List (Letters × Json)) :
    find? name ((Letters.ofString n, v) :: ms) = if name = n then some v else find? name ms := by
  rw [find?, List.lookup_cons]
  by_cases h : name = n
  · rw [if_pos h, h, BEq.rfl]
  · rw [if_neg h, beq_false_of_ne fun hs => h (Letters.ofString_injective hs)]
    rfl

end Json

/-! ## Loaded reports -/

section Loaded

variable {τ ν : Type} [ToJson τ] [ToJson ν]

/-- **A case as it is loaded again.** -/
def Case.loaded (c : Case τ ν) : LoadedCase where
  expression := toJson c.expression
  expected := c.expected
  actual := c.actual
  elapsed := toJson c.elapsed

/-- **A report as it is loaded again**: its texts and measurements as JSON, and
everything else as it was. -/
def Report.loaded (r : Report τ ν) : LoadedReport where
  suite := toJson r.suite
  timestamp := toJson r.timestamp
  wallClock := toJson r.wallClock
  cases := r.cases.map Case.loaded

theorem readNumberMember_resultJson {name : String} {ms : List (Letters × Json)} {x : Float}
    (h : Json.find? name ms = some (resultJson x)) : readNumberMember name ms = .ok x := by
  rw [readNumberMember, h]
  show (resultJson x).toNumber.mapError _ = _
  rw [toNumber_resultJson]
  rfl

/-- **A case is read from its JSON** as it is. -/
theorem LoadedCase.ofJson_toJson (c : Case τ ν) :
    LoadedCase.ofJson (toJson c) = .ok c.loaded := by
  obtain ⟨ms, hms⟩ : ∃ ms, toJson c = .obj ms := ⟨_, rfl⟩
  have hfind (name : String) : Json.find? name ms
      = if name = "expression" then some (toJson c.expression)
        else if name = "expected" then some (resultJson c.expected)
        else if name = "actual" then some (resultJson c.actual)
        else if name = "elapsed_ms" then some (toJson c.elapsed)
        else if name = "passed" then some (.bool c.passes)
        else none := by
    obtain rfl := Json.obj.inj hms
    simp only [Json.find?_cons]
    rfl
  have hexpected : readNumberMember "expected" ms = .ok c.expected :=
    readNumberMember_resultJson (hfind "expected")
  have hactual : readNumberMember "actual" ms = .ok c.actual :=
    readNumberMember_resultJson (hfind "actual")
  rw [hms, ofJson]
  show Except.bind (readNumberMember "expected" ms) _ = _
  rw [hexpected]
  show Except.bind (readNumberMember "actual" ms) _ = _
  rw [hactual]
  show Except.ok (Case.mk ((Json.find? "expression" ms).getD _) c.expected c.actual
    ((Json.find? "elapsed_ms" ms).getD _)) = _
  rw [hfind, hfind]
  rfl

theorem mapM_ofJson (cs : List (Case τ ν)) :
    (cs.map toJson).mapM LoadedCase.ofJson = .ok (cs.map Case.loaded) := by
  induction cs with
  | nil => rfl
  | cons c cs ih =>
    rw [List.map_cons, List.mapM_cons, LoadedCase.ofJson_toJson, ih]
    rfl

/-- **A report is read from its JSON** as it is. -/
theorem LoadedReport.ofJson_toJson (r : Report τ ν) :
    LoadedReport.ofJson (toJson r) = .ok r.loaded := by
  obtain ⟨ms, hms⟩ : ∃ ms, toJson r = .obj ms := ⟨_, rfl⟩
  have hfind (name : String) : Json.find? name ms
      = if name = "suite" then some (toJson r.suite)
        else if name = "timestamp" then some (toJson r.timestamp)
        else if name = "wall_clock_s" then some (toJson r.wallClock)
        else if name = "passed" then some (toJson r.passed)
        else if name = "failed" then some (toJson r.failed)
        else if name = "total" then some (toJson r.total)
        else if name = "verdict" then some (.str (Letters.ofString r.verdict.label))
        else if name = "cases" then some (.arr (r.cases.map toJson))
        else none := by
    obtain rfl := Json.obj.inj hms
    simp only [Json.find?_cons]
    rfl
  rw [hms, ofJson]
  show Except.bind ((Json.find? "cases" ms).getD _).items _ = _
  rw [hfind]
  show Except.bind ((r.cases.map toJson).mapM LoadedCase.ofJson) _ = _
  rw [mapM_ofJson]
  show Except.ok (Report.mk ((Json.find? "suite" ms).getD _) ((Json.find? "timestamp" ms).getD _)
    ((Json.find? "wall_clock_s" ms).getD _) (r.cases.map Case.loaded)) = _
  rw [hfind, hfind, hfind]
  rfl

/-! ### What a loaded report says -/

theorem Report.total_loaded (r : Report τ ν) : r.loaded.total = r.total :=
  List.length_map _

theorem Report.passed_loaded (r : Report τ ν) : r.loaded.passed = r.passed :=
  List.countP_map

theorem Report.failed_loaded (r : Report τ ν) : r.loaded.failed = r.failed := by
  rw [failed, total_loaded, passed_loaded, failed]

theorem Report.verdict_loaded (r : Report τ ν) : r.loaded.verdict = r.verdict := by
  rw [verdict, total_loaded, passed_loaded, verdict]

theorem Report.failures_loaded (r : Report τ ν) :
    r.loaded.failures = r.failures.map Case.loaded :=
  List.filter_map

/-- **A loaded report is written as it was.** -/
theorem Report.toJson_loaded (r : Report τ ν) : toJson r.loaded = toJson r := by
  have hcases : r.loaded.cases.map toJson = r.cases.map toJson :=
    List.map_map.trans (List.map_congr_left fun _ _ => rfl)
  show Json.obj [_, _, _, _, _, _, _, (_, .arr (r.loaded.cases.map toJson))] = _
  rw [hcases, passed_loaded, failed_loaded, total_loaded, verdict_loaded]
  rfl

end Loaded

/-! ## Files -/

variable {room : Nat}

/-- An object whose members have the given names, all of them different. -/
theorem Json.IsReadable.of_names {members : List (Letters × Json)} (names : List String)
    (hmembers : members.map Prod.fst = names.map Letters.ofString) (hnames : names.Nodup)
    (h : ∀ j ∈ members.map Prod.snd, IsReadable room j) :
    IsReadable (room + 1) (.obj members) := by
  refine .obj (fun m hm => ?_) ?_ fun m hm => h _ (List.mem_map_of_mem hm)
  · have hname : m.1 ∈ names.map Letters.ofString := hmembers ▸ List.mem_map_of_mem hm
    obtain ⟨name, _, hname⟩ := List.mem_map.mp hname
    exact ⟨name, hname.symm⟩
  · rw [hmembers]
    exact hnames.map Letters.ofString_injective

theorem Case.isReadable_toJson (c : Case String Float) :
    Json.IsReadable (room + 1) (toJson c) := by
  refine .of_names ["expression", "expected", "actual", "elapsed_ms", "passed"] rfl (by decide) ?_
  simp only [List.map_cons, List.map_nil, List.forall_mem_cons]
  exact ⟨.str (Letters.isString_ofString _), isReadable_resultJson _, isReadable_resultJson _,
    .float _, .bool _, List.forall_mem_nil _⟩

/-- The JSON of a report can be read if its counts can. A case of it is an object in a
list in an object. -/
theorem Report.isReadable_toJson {r : SuiteReport}
    (h : r.total < 10 ^ Numeral.wholeDigitLimit) : Json.IsReadable (room + 3) (toJson r) := by
  have hcount {n : Nat} (hn : n ≤ r.total) : Json.IsReadable (room + 2) (toJson n) :=
    .int (Nat.lt_of_le_of_lt hn h)
  refine .of_names ["suite", "timestamp", "wall_clock_s", "passed", "failed", "total", "verdict",
    "cases"] rfl (by decide) ?_
  simp only [List.map_cons, List.map_nil, List.forall_mem_cons]
  refine ⟨.str (Letters.isString_ofString _), .str (Letters.isString_ofString _), .float _,
    hcount List.countP_le_length, hcount (Nat.sub_le _ _), hcount (Nat.le_refl _),
    .str (Letters.isString_ofString _), .arr fun j hj => ?_, List.forall_mem_nil _⟩
  obtain ⟨c, _, rfl⟩ := List.mem_map.mp hj
  exact c.isReadable_toJson

/-- **Saving and loading a report loses nothing.** The report that is loaded from
the file of a report has the same texts, the same cases in the same order and the
same doubles, so it says the same of its suite and is written in the same way.
The number of its cases is written out, and no whole number of more than
`Numeral.wholeDigitLimit` digits is read; no list in a memory is as long as that. The
reader needs room for three lists and objects inside each other. -/
theorem LoadedReport.ofBytes_fileText {r : SuiteReport}
    (h : r.total < 10 ^ Numeral.wholeDigitLimit) :
    LoadedReport.ofBytes r.fileText.toUTF8.toList = .ok (some r.loaded)
      ∧ (∀ room, 3 ≤ room →
        LoadedReport.load room (.file r.fileText.toUTF8.toList) = .ok (some r.loaded))
      ∧ r.loaded.total = r.total ∧ r.loaded.passed = r.passed ∧ r.loaded.failed = r.failed
      ∧ r.loaded.verdict = r.verdict ∧ r.loaded.failures = r.failures.map Case.loaded
      ∧ ∀ spread, (toJson r.loaded).write spread = (toJson r).write spread := by
  have hread (room : Nat) (hroom : 3 ≤ room) :
      Json.readWithin room r.fileText.toList = .ok (toJson r) := by
    obtain ⟨room, rfl⟩ := Nat.exists_eq_add_of_le' hroom
    exact Json.readWithin_write (Report.isReadable_toJson h) .block
  have hreport : ofJson? (toJson r) = .ok (some r.loaded) := by rw [ofJson?, ofJson_toJson]
  refine ⟨?_, fun room hroom => ?_, r.total_loaded, r.passed_loaded, r.failed_loaded,
    r.verdict_loaded, r.failures_loaded, fun spread => by rw [r.toJson_loaded]⟩
  · have hfuel : 3 ≤ Json.fuelFor r.fileText.toList := by
      have hpos : 0 < r.fileText.toList.length :=
        List.length_pos_of_ne_nil fun hnil => nomatch hnil ▸ hread 3 (Nat.le_refl 3)
      rw [Json.fuelFor]
      omega
    rw [ofBytes, Text.ofUtf8_toUTF8]
    dsimp only
    rw [Json.read, hread _ hfuel]
    exact hreport
  · rw [load, Text.ofUtf8_toUTF8]
    dsimp only
    rw [hread room hroom]
    exact congrArg (Except.mapError LoadError.report) hreport

/-- A report with a character that needs two units and with doubles that have no
digits. -/
theorem LoadedReport.ofBytes_fileText_single :
    (Report.mk "𝄞" "" Binary64.undefined [Case.mk "1/0" (Binary64.infinity true)
        (Binary64.zero true) (Binary64.infinity false)] : SuiteReport).total
        < 10 ^ Numeral.wholeDigitLimit
      ∧ LoadedReport.ofBytes (Report.mk "𝄞" "" Binary64.undefined [Case.mk "1/0"
        (Binary64.infinity true) (Binary64.zero true)
        (Binary64.infinity false)] : SuiteReport).fileText.toUTF8.toList
        = .ok (some ⟨.str "𝄞", .str "", .float Binary64.undefined, [⟨.str "1/0",
          Binary64.infinity true, Binary64.zero true, .float (Binary64.infinity false)⟩]⟩) :=
  ⟨Nat.one_lt_pow (by decide) (by decide),
    (ofBytes_fileText (Nat.one_lt_pow (by decide) (by decide))).1⟩

end Reckon
