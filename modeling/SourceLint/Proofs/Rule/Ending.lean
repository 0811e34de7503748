import SourceLint.Proofs.Rule.Unused
import SourceLint.Rule.Registry

/-! # How rules finish

The functions in the bank are a set, and the function rule gets them in whatever order
the set has them. What the rules say at the end is nevertheless settled by what the bank
holds, but for the spelling of paths.
-/

namespace SourceLint

/-- The violation, but for the spelling of the path to its file. -/
def Violation.key (v : Violation) :
    String × String × Severity × (List Path.Component × Nat × Nat) × String :=
  (v.code, v.rule, v.severity, v.location.key, v.message)

namespace Rule

open UnusedFunction (unusedAmong violation)

theorem mem_all_iff {r : Rule} : r ∈ all ↔ r = LongLine.rule ∨ r = UnusedFunction.rule := by
  rw [all, List.mem_cons, List.mem_singleton]

/-- What a rule may say at the end of a run. -/
inductive Ends (run : Run) : Rule → List Violation → Prop where
  | settled (r : Rule) : Ends run r (r.finish run)
  /-- The functions come in some order. -/
  | unordered {symbols : List Mention} (order : symbols.Perm run.bank.symbols.toList) :
      Ends run UnusedFunction.rule ((unusedAmong run.config run.bank symbols).map violation)

/-- What the rules may say at the end of a run, one after the other. -/
inductive EndsAll (run : Run) : List Rule → List Violation → Prop where
  | nil : EndsAll run [] []
  | cons {r : Rule} {rules : List Rule} {found others : List Violation} (ends : Ends run r found)
      (rest : EndsAll run rules others) :
      EndsAll run (r :: rules) (found.map (adjust run.config r) ++ others)

theorem endsAll_finishAll (run : Run) (rules : List Rule) :
    EndsAll run rules (finishAll run rules) := by
  induction rules with
  | nil => exact .nil
  | cons r rest ih => exact .cons (.settled r) ih

/-- Of the rules there are, one says nothing at the end and the other says which functions
are unused. -/
theorem Ends.of_mem_all {run : Run} {r : Rule} {found : List Violation} (ends : Ends run r found)
    (builtin : r ∈ all) :
    (r.name = longLineRule ∧ found = []) ∨
      (r.name = unusedFunctionRule ∧ ∃ symbols : List Mention,
        symbols.Perm run.bank.symbols.toList ∧
          found = (unusedAmong run.config run.bank symbols).map violation) := by
  cases ends with
  | settled =>
      rcases mem_all_iff.mp builtin with rfl | rfl
      · exact .inl ⟨rfl, rfl⟩
      · exact .inr ⟨rfl, _, .rfl, rfl⟩
  | unordered order => exact .inr ⟨rfl, _, order, rfl⟩

theorem adjust_key {config : Config} {r : Rule} {v w : Violation} (same : v.key = w.key) :
    (adjust config r v).key = (adjust config r w).key := by
  simp only [Violation.key, Prod.mk.injEq] at same
  obtain ⟨code, rule, severity, place, message⟩ := same
  simp only [Violation.key, adjust, code, rule, severity, place, message]

theorem violation_key {m n : Mention} (same : m.key = n.key) :
    (violation m).key = (violation n).key := by
  have name : m.name = n.name := congrArg Prod.fst same
  have place : m.location.key = n.location.key := congrArg Prod.snd same
  simp only [Violation.key, violation, name, place]

/-- A function that keeps what elements are compared by keeps what lists are. -/
theorem map_key_map {A B C D : Type} {f : A → B} {keyA : A → C} {keyB : B → D}
    (keeps : ∀ {x y}, keyA x = keyA y → keyB (f x) = keyB (f y)) {l l' : List A}
    (same : l.map keyA = l'.map keyA) : (l.map f).map keyB = (l'.map f).map keyB := by
  induction l generalizing l' with
  | nil =>
      obtain rfl := List.map_eq_nil_iff.mp same.symm
      rfl
  | cons x rest ih =>
      obtain ⟨y, rest', rfl, head, tail⟩ := List.map_eq_cons_iff.mp same.symm
      rw [List.map_cons, List.map_cons, List.map_cons, List.map_cons, keeps head, ih tail.symm]

variable {run run' : Run} {defined : Mention → Prop} {used : String → Prop} {rules : List Rule}
  {found found' : List Violation}

theorem Ends.keys_eq {r : Rule} (builtin : r ∈ all) (config : run.config = run'.config)
    (holds : run.bank.Holds defined used) (holds' : run'.bank.Holds defined used)
    (named : ∀ m n, defined m → defined n → m.location.key = n.location.key → m.name = n.name)
    (ends : Ends run r found) (ends' : Ends run' r found') :
    found.map Violation.key = found'.map Violation.key := by
  have differ : longLineRule ≠ unusedFunctionRule := by decide
  rcases ends.of_mem_all builtin with ⟨name, rfl⟩ | ⟨name, symbols, order, rfl⟩
  · rcases ends'.of_mem_all builtin with ⟨_, rfl⟩ | ⟨name', _⟩
    · rfl
    · exact absurd (name.symm.trans name') differ
  · rcases ends'.of_mem_all builtin with ⟨name', _⟩ | ⟨_, symbols', order', rfl⟩
    · exact absurd (name'.symm.trans name) differ
    · rw [← config]
      exact map_key_map violation_key
        (UnusedFunction.keys_unusedAmong_eq holds holds' named order order')

/-- After runs whose banks hold the same the rules say the same, whatever order they get the
functions in. -/
theorem EndsAll.keys_eq (builtin : ∀ r ∈ rules, r ∈ all) (config : run.config = run'.config)
    (holds : run.bank.Holds defined used) (holds' : run'.bank.Holds defined used)
    (named : ∀ m n, defined m → defined n → m.location.key = n.location.key → m.name = n.name)
    (ends : EndsAll run rules found) (ends' : EndsAll run' rules found') :
    found.map Violation.key = found'.map Violation.key := by
  induction ends generalizing found' with
  | nil =>
      cases ends'
      rfl
  | cons ends _ ih =>
      cases ends' with
      | cons ends' rest' =>
          have first := ends.keys_eq (builtin _ List.mem_cons_self) config holds holds' named ends'
          have others := ih (fun r member => builtin r (List.mem_cons_of_mem _ member)) rest'
          rw [List.map_append, List.map_append, others, ← config]
          rw [map_key_map (adjust_key) first]

/-- What is said at the end is said of functions that have been defined. -/
theorem EndsAll.location (builtin : ∀ r ∈ rules, r ∈ all) (holds : run.bank.Holds defined used)
    (ends : EndsAll run rules found) {v : Violation} (member : v ∈ found) :
    ∃ m, defined m ∧ v.location = m.location := by
  induction ends with
  | nil => cases member
  | cons ends _ ih =>
      rcases List.mem_append.mp member with first | other
      · obtain ⟨w, said, rfl⟩ := List.mem_map.mp first
        rcases ends.of_mem_all (builtin _ List.mem_cons_self) with
          ⟨_, rfl⟩ | ⟨_, symbols, order, rfl⟩
        · cases said
        · obtain ⟨m, unused, rfl⟩ := List.mem_map.mp said
          exact ⟨m, UnusedFunction.defined_of_mem_unusedAmong holds order unused, rfl⟩
      · exact ih (fun r inside => builtin r (List.mem_cons_of_mem _ inside)) other

end Rule

end SourceLint
