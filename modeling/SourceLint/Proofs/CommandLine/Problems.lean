import SourceLint.CommandLine.Run
import SourceLint.Proofs.Config.Reporting
import SourceLint.Proofs.Diagnostic.Printing

/-! # What is said about the problems of a configuration

To check a configuration is to say of each problem where it is and what it is, with a label on the
text of the document. What is said tells problems apart: of no other problems would the same be
said.
-/

namespace SourceLint.CommandLine

variable {path : Path} {source : String} {x y : Diagnostic}

/-- What is said about a problem, where it is and then what it is, on a text. -/
def told (source : String) (x : Diagnostic) : List Remark :=
  [.line x.renderPlace, .excerpt ⟨"[" ++ x.code ++ "] " ++ x.message, source,
    Text.offsetOf source.toList x.line x.column, x.rule⟩]

/-- What is answered about a document at a path that has these problems, shown on a text. -/
def answer (path : Path) (source : String) (problems : List Diagnostic) : Outcome :=
  if problems = [] then { output := path.text ++ ": configuration is valid\n" }
  else
    { exit := 1
      remarks := problems.flatMap (told source) ++
        [.line ("Found " ++ toString problems.length ++ " configuration problem(s)")] }

theorem exit_answer {problems : List Diagnostic} :
    (answer path source problems).exit = 1 ↔ problems ≠ [] := by
  rw [answer]
  split
  · rename_i none
    exact iff_of_false Nat.zero_ne_one (not_not.mpr none)
  · rename_i some
    exact iff_of_true rfl some

/-- The lines without the excerpts are the places, and how many there are. -/
theorem errors_answer {problems : List Diagnostic} (some : problems ≠ []) :
    (answer path source problems).errors =
      problems.map Diagnostic.renderPlace ++
        ["Found " ++ toString problems.length ++ " configuration problem(s)"] := by
  have places (xs : List Diagnostic) :
      (xs.flatMap (told source)).filterMap Remark.line? = xs.map Diagnostic.renderPlace := by
    induction xs with
    | nil => rfl
    | cons x xs ih =>
        rw [List.flatMap_cons, List.filterMap_append, ih]
        rfl
  rw [answer, if_neg some, Outcome.errors, List.filterMap_append, places]
  rfl

/-! ## Telling problems apart -/

/-- An error in the document at a path, under the code of the configuration. -/
structure IsProblem (path : Path) (x : Diagnostic) : Prop where
  path : x.path = some path
  code : x.code = "PL000"
  severity : x.severity = .error

theorem IsProblem.eq_of_told (isx : IsProblem path x) (isy : IsProblem path y)
    (same : told source x = told source y) : x = y := by
  obtain ⟨named, code, severity⟩ := isx
  obtain ⟨named', code', severity'⟩ := isy
  simp only [told, List.cons.injEq, Remark.line.injEq, Remark.excerpt.injEq, Excerpt.mk.injEq,
    code, code', String.append_right_inj, and_true, true_and] at same
  obtain ⟨place, message, -, rule⟩ := same
  have position : (⟨x.line + 1, x.column + 1⟩ : Position) = ⟨y.line + 1, y.column + 1⟩ := by
    rw [Diagnostic.renderPlace_eq named rfl, Diagnostic.renderPlace_eq named' rfl,
      String.append_right_inj] at place
    exact Position.eq_of_render place
  cases x
  cases y
  simp_all

/-- Different problems are not told the same. -/
theorem eq_of_flatMap_told {xs ys : List Diagnostic} (isx : ∀ x ∈ xs, IsProblem path x)
    (isy : ∀ y ∈ ys, IsProblem path y)
    (same : xs.flatMap (told source) = ys.flatMap (told source)) : xs = ys := by
  induction xs generalizing ys with
  | nil =>
      cases ys with
      | nil => rfl
      | cons y ys => cases same
  | cons x xs ih =>
      cases ys with
      | nil => cases same
      | cons y ys =>
          rw [List.forall_mem_cons] at isx isy
          obtain ⟨first, others⟩ := List.append_inj same rfl
          rw [isx.1.eq_of_told isy.1 first, ih isx.2 isy.2 others]

theorem eq_of_answer {xs ys : List Diagnostic} (isx : ∀ x ∈ xs, IsProblem path x)
    (isy : ∀ y ∈ ys, IsProblem path y) (same : answer path source xs = answer path source ys) :
    xs = ys := by
  have exits := congrArg (fun o => o.exit = 1) same
  simp only [exit_answer, eq_iff_iff, not_iff_not] at exits
  by_cases none : xs = []
  · rw [none, exits.mp none]
  · rw [answer, if_neg none, answer, if_neg (mt exits.mpr none), Outcome.mk.injEq] at same
    exact eq_of_flatMap_told isx isy (List.append_inj' same.2.2.1 rfl).1

/-! ## Checking a configuration -/

/-- What the load has to say is answered. -/
theorem checkConfig_eq_answer {e : Environment} {tree : FileTree} {document : Document}
    (named : document.path? = some path) :
    checkConfig e tree document = answer path (shownText e tree path)
      (document.load fun p => tree.read (e.directory.join p)).diagnostics := by
  rw [checkConfig, named]
  dsimp only
  cases said : (document.load fun p => tree.read (e.directory.join p)).diagnostics with
  | nil => rfl
  | cons x rest =>
      change ({ exit := 1, remarks := problemsRemarks path (shownText e tree path) (x :: rest) } :
        Outcome) = _
      rw [answer, if_neg (List.cons_ne_nil x rest), problemsRemarks]
      congr 2
      refine List.flatMap_congr fun y member => ?_
      have placed := (Document.each_of_load y (said ▸ member)).1
      rw [problemRemarks, told, Diagnostic.renderPlace, placed, named]
      rfl

end SourceLint.CommandLine
