import Mathlib.Logic.Relation
import SourceLint.Analysis
import SourceLint.Proofs.Rule.Ending

/-! # Workers

A run as it happens. One thread loads the configuration, finds the files, waits for the
workers to be done with them, and puts the results together. The workers take the files in
any order, no more of them at once than there are workers, and what one worker does can
come between any two moves of the others. What a rule has found for the bank goes there in
three batches. The flag that cancels the run can be set at any time.
-/

namespace SourceLint.Analysis

/-- How far the work on a file has come. -/
inductive Progress where
  | waiting
  /-- A worker has it, and has found the run not cancelled. -/
  | taken
  /-- What rules have left to say, the batches that the last one has left to post, and the
  violations so far. -/
  | checking (left : List Checked) (batches : List Batch) (found : List Violation)
  | done (result : Except Failure (List Violation))

/-- A worker has the file. -/
def Progress.isBusy : Progress → Bool
  | taken => true
  | checking _ _ _ => true
  | _ => false

/-- How many files workers have. -/
def busy (files : List (Path × Progress)) : Nat :=
  files.countP fun file => file.2.isBusy

/-- How far a run has come. -/
inductive Stage where
  | starting
  | loaded (outcome : LoadOutcome)
  | checking (outcome : LoadOutcome) (files : List (Path × Progress))
  | collecting (outcome : LoadOutcome) (results : List (Except Failure (List Violation)))
  | returned (result : Except Failure Report)

/-- A run, with all that its threads share. -/
structure State where
  cancelled : Bool
  cache : Cache
  bank : Bank
  stage : Stage

/-- A run that begins. The flag may be set already. -/
def start (a : Analysis) (cancelled : Bool) : State :=
  ⟨cancelled, { document := a.document }, {}, .starting⟩

/-- What the rules that are switched on say about a file. -/
def said (a : Analysis) (tree : FileTree) (config : Config) (path : Path) :
    Except Failure (List Checked) :=
  checkEach tree a.fullRoot config (a.enabledRules config) path

/-- The results of files that have one. -/
def successes {A : Type} (results : List (Except Failure A)) : List A :=
  results.filterMap (·.toOption)

/-- What a worker does next with a file, given what the rules say about it. -/
inductive Move (said : Except Failure (List Checked)) (cancelled : Bool) (bank : Bank) :
    Progress → Bool → Bank → Progress → Prop where
  | skip (set : cancelled = true) :
      Move said cancelled bank .waiting cancelled bank (.done (.ok []))
  | take (unset : cancelled = false) : Move said cancelled bank .waiting cancelled bank .taken
  | fail {failure : Failure} (fails : said = .error failure) :
      Move said cancelled bank .taken cancelled bank (.done (.error failure))
  | read {all : List Checked} (reads : said = .ok all) :
      Move said cancelled bank .taken cancelled bank (.checking all [] [])
  | say {c : Checked} {left : List Checked} {found : List Violation} :
      Move said cancelled bank (.checking (c :: left) [] found)
        (cancelled || c.cancels) bank (.checking left c.facts.batches (found ++ c.violations))
  | post {left : List Checked} {batch : Batch} {batches : List Batch} {found : List Violation} :
      Move said cancelled bank (.checking left (batch :: batches) found)
        cancelled (bank.post batch) (.checking left batches found)
  | finish {found : List Violation} :
      Move said cancelled bank (.checking [] [] found) cancelled bank (.done (.ok found))

/-- What a run does next. -/
inductive Step (a : Analysis) (tree : FileTree) (workers : Nat) : State → State → Prop where
  | giveUp {cancelled cache bank cache'}
      (load : cache.tryLoad (a.load tree) cancelled = (none, cache')) :
      Step a tree workers ⟨cancelled, cache, bank, .starting⟩
        ⟨cancelled, cache', bank, .returned (.error .cancelled)⟩
  | load {cancelled cache bank outcome cache'}
      (load : cache.tryLoad (a.load tree) cancelled = (some outcome, cache')) :
      Step a tree workers ⟨cancelled, cache, bank, .starting⟩
        ⟨cancelled, cache', bank, .loaded outcome⟩
  | lose {cancelled cache bank outcome failure}
      (sources : a.sources tree outcome.config = .error failure) :
      Step a tree workers ⟨cancelled, cache, bank, .loaded outcome⟩
        ⟨cancelled, cache, bank, .returned (.error failure)⟩
  | discover {cancelled cache bank outcome paths}
      (sources : a.sources tree outcome.config = .ok paths) :
      Step a tree workers ⟨cancelled, cache, bank, .loaded outcome⟩
        ⟨cancelled, cache, bank, .checking outcome (paths.map fun path => (path, .waiting))⟩
  | work {cancelled cache bank outcome path progress cancelled' bank' progress'}
      (before after : List (Path × Progress))
      (move : Move (a.said tree outcome.config path) cancelled bank progress
        cancelled' bank' progress')
      (room : busy (before ++ (path, progress') :: after) ≤ workers) :
      Step a tree workers
        ⟨cancelled, cache, bank, .checking outcome (before ++ (path, progress) :: after)⟩
        ⟨cancelled', cache, bank', .checking outcome (before ++ (path, progress') :: after)⟩
  | abandon {cache bank outcome files} {results : List (Except Failure (List Violation))}
      (done : files.map Prod.snd = results.map .done) :
      Step a tree workers ⟨true, cache, bank, .checking outcome files⟩
        ⟨true, cache, bank, .returned (.error .cancelled)⟩
  | join {cache bank outcome files} {results : List (Except Failure (List Violation))}
      (done : files.map Prod.snd = results.map .done) :
      Step a tree workers ⟨false, cache, bank, .checking outcome files⟩
        ⟨false, cache, bank, .collecting outcome results⟩
  | fail {cancelled cache bank outcome results failure}
      (fails : failure? a.strict results = some failure) :
      Step a tree workers ⟨cancelled, cache, bank, .collecting outcome results⟩
        ⟨cancelled, cache, bank, .returned (.error failure)⟩
  | finish {cancelled cache bank outcome results ended}
      (fine : failure? a.strict results = none)
      (ends : Rule.EndsAll ⟨outcome.config, bank, cache.loads⟩ (a.enabledRules outcome.config)
        ended) :
      Step a tree workers ⟨cancelled, cache, bank, .collecting outcome results⟩
        ⟨cancelled, cache, bank, .returned (.ok (reportOf outcome (successes results).length
          ((successes results).flatten ++ ended)))⟩

/-- What can happen: the run goes on, or the flag is set. -/
inductive Happens (a : Analysis) (tree : FileTree) (workers : Nat) (s : State) : State → Prop where
  | step {t : State} (step : Step a tree workers s t) : Happens a tree workers s t
  | cancel : Happens a tree workers s { s with cancelled := true }

/-- A state that is reached from another, in whatever way things happen. -/
abbrev Reaches (a : Analysis) (tree : FileTree) (workers : Nat) : State → State → Prop :=
  Relation.ReflTransGen (Happens a tree workers)

end SourceLint.Analysis
