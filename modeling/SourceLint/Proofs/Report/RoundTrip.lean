import SourceLint.Proofs.Json.RoundTrip
import SourceLint.Report.Decoding

/-! # What is reported as JSON is read back

Diagnostics, violations and reports are decoded from their encodings as they were. And whatever
text is decoded as one of them, its value has an encoding of which the same can be said.
-/

namespace SourceLint

namespace Json

variable {α : Type} {fits : α → Prop} {encode : α → Json} {decode : Json → Option α}

/-- Values are decoded from their encodings, and those decoded from any text at all are among the
values that are. -/
structure RoundTrips (fits : α → Prop) (encode : α → Json) (decode : Json → Option α) :
    Prop where
  compact : ∀ a, fits a → (parse? (encode a).render).bind decode = some a
  indented : ∀ a, fits a → (parse? (encode a).renderPretty).bind decode = some a
  again : ∀ text a, (parse? text).bind decode = some a →
    fits a ∧ (parse? (encode a).render).bind decode = some a

theorem RoundTrips.of_inverse (exact : ∀ a, Exact (encode a))
    (inverse : ∀ a, fits a → decode (encode a) = some a)
    (range : ∀ j a, decode j = some a → fits a) : RoundTrips fits encode decode := by
  have compact : ∀ a, fits a → (parse? (encode a).render).bind decode = some a := by
    intro a ok
    rw [parse?_render (exact a), Option.bind_some, inverse a ok]
  refine ⟨compact, fun a ok => ?_, fun text a read => ?_⟩
  · rw [parse?_renderPretty (exact a), Option.bind_some, inverse a ok]
  · obtain ⟨j, _, decoded⟩ := Option.bind_eq_some_iff.mp read
    exact ⟨range j a decoded, compact a (range j a decoded)⟩

theorem word?_nat {n : Nat} (small : n ≤ Text.maxWord) : word? (nat n) = some n := by
  have read : (nat n).nat? = some n := rfl
  rw [word?, read, Option.filter_some, if_pos (decide_eq_true small)]

theorem le_of_word? {j : Json} {n : Nat} (read : j.word? = some n) : n ≤ Text.maxWord :=
  of_decide_eq_true (Option.filter_eq_some_iff.mp read).2

end Json

open Json (Exact RoundTrips)

theorem Severity.exact_toJson (s : Severity) : Exact s.toJson :=
  .string s.render

theorem Severity.ofJson?_toJson (s : Severity) : ofJson? s.toJson = some s := by
  cases s <;> rfl

/-! ## Locations and violations -/

/-- The numbers of a location are machine words. -/
def Location.FitsWord (l : Location) : Prop :=
  l.line ≤ Text.maxWord ∧ l.column ≤ Text.maxWord

def Violation.FitsWord (v : Violation) : Prop :=
  v.location.FitsWord

namespace Location

theorem exact_toJson (l : Location) : Exact l.toJson := by
  refine .object ?_
  simp only [List.forall_mem_cons]
  exact ⟨.string _, .int _, .int _, List.forall_mem_nil _⟩

theorem ofJson?_toJson {l : Location} (fits : l.FitsWord) : ofJson? l.toJson = some l := by
  have fields : l.toJson.record? ["file", "line", "column"] =
      some [some (.string l.file.text), some (.nat l.line), some (.nat l.column)] := rfl
  rw [ofJson?, fields]
  simp [Json.string?, Json.word?_nat fits.1, Json.word?_nat fits.2]

theorem fitsWord_of_ofJson? {j : Json} {l : Location} (read : ofJson? j = some l) :
    l.FitsWord := by
  simp only [ofJson?, Option.bind_eq_bind, Option.bind_eq_some_iff] at read
  obtain ⟨fields, _, read⟩ := read
  split at read
  · simp only [Option.bind_eq_some_iff, Option.pure_def, Option.some.injEq] at read
    obtain ⟨_, _, line, isLine, column, isColumn, rfl⟩ := read
    exact ⟨Json.le_of_word? isLine, Json.le_of_word? isColumn⟩
  · cases read

end Location

namespace Violation

theorem exact_toJson (v : Violation) : Exact v.toJson := by
  refine .object ?_
  simp only [List.forall_mem_cons]
  exact ⟨.string _, .string _, v.severity.exact_toJson, v.location.exact_toJson, .string _,
    List.forall_mem_nil _⟩

theorem ofJson?_toJson {v : Violation} (fits : v.FitsWord) : ofJson? v.toJson = some v := by
  have fields : v.toJson.record? ["code", "rule", "severity", "location", "message"] =
      some [some (.string v.code), some (.string v.rule), some v.severity.toJson,
        some v.location.toJson, some (.string v.message)] := rfl
  rw [ofJson?, fields]
  simp [Json.string?, Severity.ofJson?_toJson, Location.ofJson?_toJson fits]

theorem fitsWord_of_ofJson? {j : Json} {v : Violation} (read : ofJson? j = some v) :
    v.FitsWord := by
  simp only [ofJson?, Option.bind_eq_bind, Option.bind_eq_some_iff] at read
  obtain ⟨fields, _, read⟩ := read
  split at read
  · simp only [Option.bind_eq_some_iff, Option.pure_def, Option.some.injEq] at read
    obtain ⟨_, _, _, _, _, _, location, isLocation, _, _, rfl⟩ := read
    exact Location.fitsWord_of_ofJson? isLocation
  · cases read

end Violation

/-! ## Diagnostics and reports -/

/-- The numbers of a diagnostic are machine words. -/
def Diagnostic.FitsWord (d : Diagnostic) : Prop :=
  d.line ≤ Text.maxWord ∧ d.column ≤ Text.maxWord

def Report.FitsWord (r : Report) : Prop :=
  r.filesChecked ≤ Text.maxWord ∧ ∀ d ∈ r.diagnostics, d.FitsWord

/-- A path, or null in its place. -/
def Path.toJson (path : Option Path) : Json :=
  Json.ofOption (fun p : Path => .string p.text) path

theorem Path.exact_toJson (path : Option Path) : Exact (toJson path) := by
  cases path with
  | none => exact .null
  | some path => exact .string path.text

theorem Path.ofJson?_toJson (path : Option Path) : ofJson? (some (toJson path)) = some path := by
  cases path <;> rfl

namespace Diagnostic

theorem exact_toJson (d : Diagnostic) : Exact d.toJson := by
  refine .object ?_
  simp only [List.forall_mem_cons]
  exact ⟨Path.exact_toJson d.path, .int _, .int _, d.severity.exact_toJson, .string _, .string _,
    .string _, List.forall_mem_nil _⟩

theorem ofJson?_toJson {d : Diagnostic} (fits : d.FitsWord) : ofJson? d.toJson = some d := by
  have fields :
      d.toJson.record? ["path", "line", "column", "severity", "code", "rule", "message"] =
        some [some (Path.toJson d.path), some (.nat d.line), some (.nat d.column),
          some d.severity.toJson, some (.string d.code), some (.string d.rule),
          some (.string d.message)] := rfl
  rw [ofJson?, fields]
  simp [Json.string?, Path.ofJson?_toJson, Severity.ofJson?_toJson, Json.word?_nat fits.1,
    Json.word?_nat fits.2]

theorem fitsWord_of_ofJson? {j : Json} {d : Diagnostic} (read : ofJson? j = some d) :
    d.FitsWord := by
  simp only [ofJson?, Option.bind_eq_bind, Option.bind_eq_some_iff] at read
  obtain ⟨fields, _, read⟩ := read
  split at read
  · simp only [Option.bind_eq_some_iff, Option.pure_def, Option.some.injEq] at read
    obtain ⟨_, _, line, isLine, column, isColumn, _, _, _, _, _, _, _, _, rfl⟩ := read
    exact ⟨Json.le_of_word? isLine, Json.le_of_word? isColumn⟩
  · cases read

theorem mapM_ofJson?_toJson {ds : List Diagnostic} (fits : ∀ d ∈ ds, d.FitsWord) :
    (ds.map toJson).mapM ofJson? = some ds := by
  induction ds with
  | nil => rfl
  | cons d ds ih =>
      rw [List.forall_mem_cons] at fits
      simp [ofJson?_toJson fits.1, ih fits.2]

theorem fitsWord_of_mapM {js : List Json} {ds : List Diagnostic}
    (read : js.mapM ofJson? = some ds) : ∀ d ∈ ds, d.FitsWord := by
  induction js generalizing ds with
  | nil =>
      cases read
      exact List.forall_mem_nil _
  | cons j js ih =>
      simp only [List.mapM_cons, Option.bind_eq_bind, Option.bind_eq_some_iff, Option.pure_def,
        Option.some.injEq] at read
      obtain ⟨d, first, others, later, rfl⟩ := read
      exact List.forall_mem_cons.mpr ⟨fitsWord_of_ofJson? first, ih later⟩

end Diagnostic

namespace Report

theorem exact_toJson (r : Report) : Exact r.toJson := by
  refine .object ?_
  simp only [List.forall_mem_cons]
  refine ⟨.array ?_, .int _, r.failOn.exact_toJson, List.forall_mem_nil _⟩
  intro item member
  obtain ⟨d, _, rfl⟩ := List.mem_map.mp member
  exact d.exact_toJson

theorem ofJson?_toJson {r : Report} (fits : r.FitsWord) : ofJson? r.toJson = some r := by
  have fields : r.toJson.record? ["diagnostics", "files_checked", "fail_on"] =
      some [some (.array (r.diagnostics.map Diagnostic.toJson)), some (.nat r.filesChecked),
        some r.failOn.toJson] := rfl
  rw [ofJson?, fields]
  simp [Json.array?, Diagnostic.mapM_ofJson?_toJson fits.2, Json.word?_nat fits.1,
    Severity.ofJson?_toJson]

theorem fitsWord_of_ofJson? {j : Json} {r : Report} (read : ofJson? j = some r) :
    r.FitsWord := by
  simp only [ofJson?, Option.bind_eq_bind, Option.bind_eq_some_iff] at read
  obtain ⟨fields, _, read⟩ := read
  split at read
  · simp only [Option.bind_eq_some_iff, Option.pure_def, Option.some.injEq] at read
    obtain ⟨_, _, diagnostics, each, files, isFiles, _, _, rfl⟩ := read
    exact ⟨Json.le_of_word? isFiles, Diagnostic.fitsWord_of_mapM each⟩
  · cases read

end Report

/-! ## The round trip -/

/-- What is reported can be encoded and decoded without loss, whatever texts are in it, as long
as its numbers are machine words; and nothing else is ever decoded. -/
theorem Report.json_roundTrips :
    RoundTrips Diagnostic.FitsWord Diagnostic.toJson Diagnostic.ofJson? ∧
      RoundTrips Violation.FitsWord Violation.toJson Violation.ofJson? ∧
      RoundTrips Report.FitsWord Report.toJson Report.ofJson? :=
  ⟨.of_inverse Diagnostic.exact_toJson (fun _ => Diagnostic.ofJson?_toJson)
      fun _ _ => Diagnostic.fitsWord_of_ofJson?,
    .of_inverse Violation.exact_toJson (fun _ => Violation.ofJson?_toJson)
      fun _ _ => Violation.fitsWord_of_ofJson?,
    .of_inverse Report.exact_toJson (fun _ => Report.ofJson?_toJson)
      fun _ _ => Report.fitsWord_of_ofJson?⟩

/-- A path and texts that need every kind of escape, beside a diagnostic without a path. -/
def Report.awkward : Report where
  diagnostics := [
    ⟨some ⟨"a \"b\"\\c\x00\x1f.rs"⟩, 18446744073709551615, 0, .warning, "\t\x08\x0c\r\n", "",
      "😀\x7f\u2028/"⟩,
    ⟨none, 0, 18446744073709551615, .error, "PL000", "config", "\x7b\x7d[],:"⟩]
  filesChecked := 18446744073709551615
  failOn := .warning

/-- A violation as an array, with white space and escapes in it. -/
def Violation.arrayForm : String :=
  "[ \"\\u0050L\", \"\\/\",\t\x7b\"error\" :null\x7d, [\"a.rs\",1,\n 20], \"\\ud83d\\uDE00\"]\r\n"

theorem Report.json_awkward :
    (Json.parse? awkward.toJson.render).bind ofJson? = some awkward ∧
      (∀ d ∈ awkward.diagnostics, d.FitsWord ∧
        (Json.parse? d.toJson.render).bind Diagnostic.ofJson? = some d) ∧
      ∃ v, (Json.parse? Violation.arrayForm).bind Violation.ofJson? = some v ∧
        v.rule = "/" ∧ v.message = "😀" ∧ v.FitsWord ∧
        (Json.parse? v.toJson.render).bind Violation.ofJson? = some v := by
  obtain ⟨diagnostics, violations, reports⟩ := json_roundTrips
  have each : ∀ d ∈ awkward.diagnostics, d.FitsWord := by
    unfold Diagnostic.FitsWord
    decide
  have fits : awkward.FitsWord := ⟨by decide, each⟩
  have read : (Json.parse? Violation.arrayForm).bind Violation.ofJson? =
      some ⟨"PL", "/", .error, ⟨⟨"a.rs"⟩, 1, 20⟩, "😀"⟩ := by decide +kernel
  refine ⟨reports.compact awkward fits, fun d member => ?_, _, read, rfl, rfl,
    violations.again _ _ read⟩
  exact ⟨each d member, diagnostics.compact d (each d member)⟩

/-- A name that is no text is ignored with the value it is in, but not in the record itself. -/
example :
    (Json.parse? "\x7b\"x\":\x7b\"\\ud800\":1\x7d,\"line\":2,\"column\":3\x7d").bind
        Position.ofJson? = some ⟨2, 3⟩ ∧
      (Json.parse? "\x7b\"\\ud800\":1,\"line\":2,\"column\":3\x7d").bind
        Position.ofJson? = none := by
  decide +kernel

end SourceLint
