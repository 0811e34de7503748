import SourceLint.CommandLine.Run
import SourceLint.Proofs.Config.Reporting
import SourceLint.Proofs.Text.Decimal

/-! # Positions as they are printed

What is found has its line and its column counted from one. A diagnostic counts from zero, and is
printed counting from one again, so what is printed is the position of what was found and no other.
A zero, which is the number of no line and no column, is printed as a one.
-/

namespace SourceLint

open CommandLine (problemsRemarks)

namespace Text

/-- A number ends at the first character that is no digit. -/
theorem toDigits_append_inj {m n : Nat} {rest rest' : List Char}
    (ends : ∀ c ∈ rest.head?, c.isDigit = false) (ends' : ∀ c ∈ rest'.head?, c.isDigit = false)
    (same : Nat.toDigits 10 m ++ rest = Nat.toDigits 10 n ++ rest') : m = n ∧ rest = rest' := by
  have digits (k : Nat) : ∀ c ∈ Nat.toDigits 10 k, c.isDigit = true :=
    (digits?_eq_some_iff.mp (digits?_toDigits k)).2.1
  have number := congrArg (List.takeWhile Char.isDigit) same
  have behind := congrArg (List.dropWhile Char.isDigit) same
  rw [takeWhile_append_run (digits m) ends, takeWhile_append_run (digits n) ends'] at number
  rw [dropWhile_append_run (digits m) ends, dropWhile_append_run (digits n) ends'] at behind
  have read := digits?_toDigits m
  rw [number, digits?_toDigits] at read
  exact ⟨(Option.some.inj read).symm, behind⟩

end Text

namespace Position

variable {p q : Position}

/-- Lines and columns are counted from one. -/
def CountsFromOne (p : Position) : Prop :=
  1 ≤ p.line ∧ 1 ≤ p.column

/-- The position with its zeros raised to one. -/
def raised (p : Position) : Position :=
  ⟨max 1 p.line, max 1 p.column⟩

theorem raised_eq_iff : p.raised = p ↔ p.CountsFromOne := by
  obtain ⟨line, column⟩ := p
  simp only [raised, CountsFromOne, Position.mk.injEq]
  omega

theorem toList_render (p : Position) :
    p.render.toList = Nat.toDigits 10 p.line ++ ':' :: Nat.toDigits 10 p.column := by
  simp [render]

/-- A printed position ends at the colon behind its column. -/
theorem eq_of_render_append {rest rest' : String}
    (same : p.render ++ (":" ++ rest) = q.render ++ (":" ++ rest')) : p = q := by
  have colon (cs : List Char) : ∀ c ∈ (':' :: cs).head?, c.isDigit = false :=
    Text.forall_head?_cons (p := fun c => c.isDigit = false) rfl cs
  rw [← String.toList_inj] at same
  simp only [String.toList_append, toList_render, List.append_assoc] at same
  obtain ⟨line, same⟩ := Text.toDigits_append_inj (colon _) (colon _) same
  obtain ⟨column, _⟩ := Text.toDigits_append_inj (colon _) (colon _) (List.cons.inj same).2
  cases p
  cases q
  simp_all

theorem eq_of_render (same : p.render = q.render) : p = q := by
  have ended := congrArg (· ++ (":" ++ "")) same
  exact eq_of_render_append ended

end Position

/-- The line and the column of a place in a source file. -/
def Location.position (l : Location) : Position :=
  ⟨l.line, l.column⟩

namespace Diagnostic

/-- However the diagnostic is printed, it shows the position in the file, and on its line in a
report no other. -/
structure ShowsAt (x : Diagnostic) (file : Path) (p : Position) : Prop where
  line : x.render = file.text ++ ":" ++ p.render ++ ": " ++ x.severity.render ++ " [" ++ x.code ++
    "] " ++ x.message
  only : ∀ q rest, x.render = file.text ++ ":" ++ q.render ++ ":" ++ rest → q = p
  coloured : ∃ rest, x.renderColoured =
    x.code ++ " " ++ x.rule ++ " at " ++ file.text ++ ":" ++ p.render ++ "\n  " ++ rest
  problem : ∀ source others, (problemsRemarks file source (x :: others)).head? =
    some (.line (file.text ++ ":" ++ p.render))

/-- The diagnostic is printed without a place. -/
structure ShowsNoPlace (x : Diagnostic) : Prop where
  line : x.render = "<no location>: " ++ x.severity.render ++ " [" ++ x.code ++ "] " ++ x.message
  coloured : ∃ rest, x.renderColoured =
    x.code ++ " " ++ x.rule ++ " at <no location>\n  " ++ rest

variable {x : Diagnostic} {file : Path} {p : Position}

theorem renderPlace_eq (named : x.path = some file) (at_ : x.IsAt p) :
    x.renderPlace = file.text ++ ":" ++ p.render := by
  rw [renderPlace, named, at_, Position.render]
  simp only [String.append_assoc]

theorem showsAt (named : x.path = some file) (at_ : x.IsAt p) : x.ShowsAt file p := by
  have line : x.render = file.text ++ ":" ++ p.render ++ ": " ++ x.severity.render ++ " [" ++
      x.code ++ "] " ++ x.message := by
    rw [render, renderPlace_eq named at_]
  refine ⟨line, ?_, ?_, ?_⟩
  · intro q rest same
    have colon : (": " : String) = ":" ++ " " := rfl
    rw [line, colon] at same
    simp only [String.append_assoc, String.append_right_inj] at same
    exact (Position.eq_of_render_append same).symm
  · rw [renderColoured, renderPlace_eq named at_]
    simp only [String.append_assoc]
    exact ⟨_, rfl⟩
  · intro source others
    rw [← renderPlace_eq named at_, renderPlace, named]
    rfl

theorem showsNoPlace (unnamed : x.path = none) : x.ShowsNoPlace where
  line := by
    rw [render, renderPlace, unnamed]
    rfl
  coloured := by
    rw [renderColoured, renderPlace, unnamed]
    simp only [String.append_assoc]
    exact ⟨_, rfl⟩

/-- A machine word holds the line and the column that are printed. -/
structure PrintsInWords (x : Diagnostic) : Prop where
  line : (UInt64.ofNat x.line + 1).toNat = x.line + 1
  column : (UInt64.ofNat x.column + 1).toNat = x.column + 1

/-- The diagnostic is printed with the position that is known of what was found, and with the start
of the file if none is. -/
structure Points (x : Diagnostic) (path : Option Path) (position : Option Position) : Prop where
  exact : ∀ file ∈ path, ∀ p ∈ position, p.CountsFromOne → x.ShowsAt file p
  raised : ∀ file ∈ path, ∀ p ∈ position, x.ShowsAt file p.raised
  start : ∀ file ∈ path, position = none → x.ShowsAt file .start
  nowhere : path = none → x.ShowsNoPlace
  inWords : (∀ p ∈ position, p.line < UInt64.size ∧ p.column < UInt64.size) → x.PrintsInWords

/-- Taking one from a number leaves room to add one again. -/
theorem toNat_succ_pred {n : Nat} (small : n < UInt64.size) :
    (UInt64.ofNat (n - 1) + 1).toNat = n - 1 + 1 := by
  have positive : 1 < UInt64.size := by decide
  exact Text.toNat_ofNat_succ (by omega)

/-- The diagnostic counts from zero what the position counts from one, and stands at the start
where no position is known. -/
structure Counts (x : Diagnostic) (position : Option Position) : Prop where
  line : x.line = (position.getD .start).line - 1
  column : x.column = (position.getD .start).column - 1

variable {position : Option Position}

theorem Counts.isAt (counts : x.Counts position) : x.IsAt (position.getD .start).raised := by
  have line := counts.line
  have column := counts.column
  simp only [IsAt, Position.raised, Position.mk.injEq]
  omega

theorem Counts.printsInWords (counts : x.Counts position)
    (small : ∀ p ∈ position, p.line < UInt64.size ∧ p.column < UInt64.size) : x.PrintsInWords := by
  have known : (position.getD .start).line < UInt64.size ∧
      (position.getD .start).column < UInt64.size := by
    cases position with
    | none => decide
    | some p => exact small p rfl
  exact ⟨counts.line ▸ toNat_succ_pred known.1, counts.column ▸ toNat_succ_pred known.2⟩

theorem Counts.points (counts : x.Counts position) (named : x.path = some file) :
    x.Points (some file) position := by
  have shows : x.ShowsAt file (position.getD .start).raised := showsAt named counts.isAt
  constructor
  case exact =>
    rintro _ ⟨⟩ p known fromOne
    rwa [known, Option.getD_some, Position.raised_eq_iff.mpr fromOne] at shows
  case raised =>
    rintro _ ⟨⟩ p known
    rwa [known] at shows
  case start =>
    rintro _ ⟨⟩ unknown
    rwa [unknown] at shows
  case nowhere => exact nofun
  case inWords => exact counts.printsInWords

theorem points_ofViolation (v : Violation) :
    (ofViolation v).Points (some v.location.file) (some v.location.position) :=
  Counts.points ⟨rfl, rfl⟩ rfl

theorem points_ofConfig (path : Option Path) (position : Option Position) (message : String) :
    (ofConfig path position message).Points path position := by
  cases path with
  | some file => cases position <;> exact Counts.points ⟨rfl, rfl⟩ rfl
  | none =>
      have words : (ofConfig none position message).PrintsInWords := ⟨rfl, rfl⟩
      exact ⟨nofun, nofun, nofun, fun _ => showsNoPlace rfl, fun _ => words⟩

/-- A finding is printed as the diagnostic about it just where its line and its column count from
one. -/
theorem render_ofViolation_eq_iff (v : Violation) :
    (ofViolation v).render = v.render ↔ v.location.position.CountsFromOne := by
  have shows := (points_ofViolation v).raised _ rfl _ rfl
  have written : v.render = v.location.file.text ++ ":" ++ v.location.position.render ++ ": " ++
      v.severity.render ++ " [" ++ v.code ++ "] " ++ v.message := by
    simp only [Violation.render, Position.render, Location.position, String.append_assoc]
  constructor
  · intro same
    have colon : (": " : String) = ":" ++ " " := rfl
    have only := shows.only
    rw [written, colon] at same
    simp only [String.append_assoc] at same only
    exact Position.raised_eq_iff.mp (only _ _ same).symm
  · intro fromOne
    rw [shows.line, Position.raised_eq_iff.mpr fromOne, written]
    rfl

end Diagnostic

/-- What a load can find to report. -/
inductive Fault where
  | failure (f : LoadFailure)
  | issue (i : Issue)

def Fault.position? : Fault → Option Position
  | failure f => f.position?
  | issue i => some i.position

def Fault.message : Fault → String
  | failure f => f.message
  | issue i => i.message

/-- What stopped the load, or else all of its issues. -/
def LoadOutcome.faults (o : LoadOutcome) : List Fault :=
  match o.failure with
  | some f => [.failure f]
  | none => o.issues.map .issue

theorem LoadOutcome.diagnostics_eq (o : LoadOutcome) :
    o.diagnostics = o.faults.map fun f => .ofConfig o.path f.position? f.message := by
  rw [diagnostics, faults]
  cases o.failure with
  | some f => rfl
  | none => simp only [List.map_map]; rfl

/-- Findings and faults are printed at the positions that they have, and no coordinate of theirs is
too large to be printed. -/
theorem Diagnostic.prints_positions :
    (∀ v : Violation,
      (ofViolation v).Points (some v.location.file) (some v.location.position) ∧
        ((ofViolation v).render = v.render ↔ v.location.position.CountsFromOne)) ∧
    ∀ o : LoadOutcome, List.Forall₂
      (fun fault x => x.message = fault.message ∧ x.Points o.path fault.position?)
      o.faults o.diagnostics := by
  constructor
  · intro v
    exact ⟨points_ofViolation v, render_ofViolation_eq_iff v⟩
  · intro o
    rw [o.diagnostics_eq]
    apply List.forall₂_map_right_iff.mpr
    apply List.forall₂_same.mpr
    intro fault _
    exact ⟨message_ofConfig _ _ _, points_ofConfig _ _ _⟩

/-- A finding on the last line that a machine word can count, with no column, and what a load says
of a child that is missing from a document and of an issue in a text without a path. -/
theorem Diagnostic.prints_lastLine :
    let finding : Violation :=
      ⟨"PL001", "long-line", .warning, ⟨⟨"lib.rs"⟩, Text.maxWord, 0⟩, "long"⟩
    let childless : LoadOutcome :=
      .failed ⟨"podlint.xml"⟩ (.mismatch (.missingChild "config" "Analyzer"))
    let unnamed : LoadOutcome := { issues := [⟨⟨3, 5⟩, "odd"⟩] }
    (ofViolation finding).ShowsAt ⟨"lib.rs"⟩ ⟨18446744073709551615, 1⟩ ∧
      (ofViolation finding).PrintsInWords ∧ (ofViolation finding).render ≠ finding.render ∧
      (∃ x, childless.diagnostics = [x] ∧ x.ShowsAt ⟨"podlint.xml"⟩ ⟨1, 1⟩) ∧
      ∃ x, unnamed.diagnostics = [x] ∧ x.ShowsNoPlace := by
  intro finding childless unnamed
  obtain ⟨findings, loads⟩ := prints_positions
  obtain ⟨points, same_iff⟩ := findings finding
  have small : ∀ p ∈ some finding.location.position,
      p.line < UInt64.size ∧ p.column < UInt64.size := by
    rintro _ ⟨⟩
    decide
  have zero : ¬ finding.location.position.CountsFromOne := fun fromOne =>
    absurd fromOne.2 (by decide)
  refine ⟨points.raised _ rfl _ rfl, points.inWords small, mt same_iff.mp zero, ?_, ?_⟩
  · obtain ⟨_, said⟩ := (List.forall₂_cons.mp (loads childless)).1
    exact ⟨_, rfl, said.start _ rfl rfl⟩
  · obtain ⟨_, said⟩ := (List.forall₂_cons.mp (loads unnamed)).1
    exact ⟨_, rfl, said.nowhere rfl⟩

end SourceLint
