import Mathlib
import SourceLint.Proofs.Analysis.Results
import SourceLint.Proofs.Analysis.Termination

/-! # Runs do not depend on their schedule

As long as nobody has cancelled, each file is as far as its worker says and the bank holds
what has been posted for the files. When all are done, it holds what they define and use,
and a run that goes on from there returns what one file after the other would have led to.
Once somebody has cancelled nothing is known of the files, and the run returns that it has
been cancelled, unless it had already found that it was not.
-/

namespace SourceLint.Analysis

/-! ## The work on one file -/

/-- How far the work on a file can have come in a run that nobody has cancelled, given what
the rules say about the file and what has been posted for it. -/
inductive Fits (said : Except Failure (List Checked)) : Progress → List Batch → Prop where
  | waiting : Fits said .waiting []
  | taken : Fits said .taken []
  | checking {before left : List Checked} {batches posted : List Batch}
      (reads : said = .ok (before ++ left))
      (rest : posted ++ batches = before.flatMap fun c => c.facts.batches) :
      Fits said (.checking left batches (before.flatMap (·.violations))) posted
  | failed {failure : Failure} (fails : said = .error failure) :
      Fits said (.done (.error failure)) []
  | done {all : List Checked} (reads : said = .ok all) :
      Fits said (.done (.ok (all.flatMap (·.violations)))) (all.flatMap fun c => c.facts.batches)

/-- A move of a worker posts what it has to. -/
theorem Move.fits {said : Except Failure (List Checked)} {cancelled : Bool} {bank bank' : Bank}
    {progress progress' : Progress} {posted : List Batch}
    (move : Move said cancelled bank progress false bank' progress')
    (fits : Fits said progress posted) :
    ∃ new, bank' = new.foldl Bank.post bank ∧ Fits said progress' (posted ++ new) := by
  generalize still : false = cancelled' at move
  cases move with
  -- The flag is never unset, so no file has been skipped where it is unset after the move.
  | skip set => exact absurd (still.trans set) Bool.false_ne_true
  | take unset =>
      cases fits
      exact ⟨[], rfl, .taken⟩
  | fail fails =>
      cases fits
      exact ⟨[], rfl, .failed fails⟩
  | read reads =>
      cases fits
      exact ⟨[], rfl, @Fits.checking _ [] _ [] [] reads rfl⟩
  | @say c left found =>
      cases fits with
      | @checking before _ _ _ reads rest =>
          refine ⟨[], rfl, ?_⟩
          have next : Fits said (.checking left c.facts.batches
              ((before ++ [c]).flatMap (·.violations))) posted := by
            refine .checking ?_ ?_
            · rw [reads, List.append_assoc, List.singleton_append]
            · rw [List.append_nil] at rest
              rw [rest, List.flatMap_append, List.flatMap_singleton]
          rw [List.flatMap_append, List.flatMap_singleton] at next
          rw [List.append_nil]
          exact next
  | @post left batch batches found =>
      cases fits with
      | checking reads rest =>
          refine ⟨[batch], rfl, .checking reads ?_⟩
          rw [List.append_assoc, List.singleton_append, rest]
  | finish =>
      cases fits with
      | checking reads rest =>
          rw [List.append_nil] at reads rest
          refine ⟨[], rfl, ?_⟩
          rw [List.append_nil, rest]
          exact .done reads

/-! ## The files of a run -/

/-- A file of a run, and what has been posted for it. -/
structure Account where
  path : Path
  progress : Progress
  posted : List Batch

/-- What has been posted for files. -/
def posted (accounts : List Account) : List Batch :=
  accounts.flatMap (·.posted)

/-- Each file is as far as its worker says, and the bank holds what has been posted. -/
structure Kept (a : Analysis) (tree : FileTree) (paths : List Path) (bank : Bank)
    (files : List (Path × Progress)) (accounts : List Account) : Prop where
  paths : accounts.map (·.path) = paths
  files : accounts.map (fun x => (x.path, x.progress)) = files
  fits : ∀ x ∈ accounts, Fits (a.said tree (a.outcome tree).config x.path) x.progress x.posted
  holds : bank.Holds (fun m => ∃ batch ∈ posted accounts, m ∈ batch.defined)
    fun name => ∃ batch ∈ posted accounts, ∃ m ∈ batch.used, m.name = name

variable {a : Analysis} {tree : FileTree} {workers : Nat} {paths : List Path} {bank bank' : Bank}

theorem Kept.waiting (a : Analysis) (tree : FileTree) (paths : List Path) :
    Kept a tree paths {} (paths.map fun path => (path, .waiting))
      (paths.map fun path => ⟨path, .waiting, []⟩) where
  paths := by
    rw [List.map_map]
    exact List.map_id' paths
  files := List.map_map
  fits x member := by
    obtain ⟨path, _, rfl⟩ := List.mem_map.mp member
    exact .waiting
  holds := by
    have nothing : posted (paths.map fun path => ⟨path, .waiting, []⟩) = [] := by
      rw [posted, List.flatMap_map]
      exact List.flatMap_eq_nil_iff.mpr fun _ _ => rfl
    rw [nothing]
    exact Bank.holds_foldl_post []

theorem exists_posted_iff {before after : List Account} {x : Account} {new : List Batch}
    {progress : Progress} {p : Batch → Prop} :
    (∃ batch ∈ posted (before ++ ⟨x.path, progress, x.posted ++ new⟩ :: after), p batch) ↔
      (∃ batch ∈ posted (before ++ x :: after), p batch) ∨ ∃ batch ∈ new, p batch := by
  simp only [posted, List.flatMap_append, List.flatMap_cons, List.mem_append]
  grind

/-- A move of a worker in a run that nobody has cancelled keeps the accounts. -/
theorem Kept.work {before after : List (Path × Progress)} {path : Path}
    {progress progress' : Progress} {accounts : List Account}
    (kept : Kept a tree paths bank (before ++ (path, progress) :: after) accounts)
    (move : Move (a.said tree (a.outcome tree).config path) false bank progress
      false bank' progress') :
    ∃ accounts', Kept a tree paths bank' (before ++ (path, progress') :: after) accounts' := by
  obtain ⟨first, rest, rfl, files, others⟩ := List.map_eq_append_iff.mp kept.files
  obtain ⟨x, last, rfl, file, after⟩ := List.map_eq_cons_iff.mp others
  cases file
  obtain ⟨new, rfl, fits⟩ := move.fits (kept.fits x (by simp))
  refine ⟨first ++ ⟨x.path, progress', x.posted ++ new⟩ :: last, ?_, ?_, ?_, ?_⟩
  · rw [← kept.paths, List.map_append, List.map_append, List.map_cons, List.map_cons]
  · rw [List.map_append, List.map_cons, files, after]
  · intro y member
    rcases List.mem_append.mp member with early | late
    · exact kept.fits y (List.mem_append_left _ early)
    · rcases List.mem_cons.mp late with rfl | late
      · exact fits
      · exact kept.fits y (List.mem_append_right _ (List.mem_cons_of_mem _ late))
  · refine (kept.holds.foldl_post new).congr ?_ ?_
    · exact fun m => exists_posted_iff.symm
    · exact fun name => exists_posted_iff.symm

theorem Fits.of_done {said : Except Failure (List Checked)}
    {result : Except Failure (List Violation)} {posted : List Batch}
    (fits : Fits said (.done result) posted) :
    result = said.map (fun all => all.flatMap (·.violations)) ∧
      ∀ batch, batch ∈ posted ↔ ∃ all, said = .ok all ∧ ∃ c ∈ all, batch ∈ c.facts.batches := by
  cases fits with
  | failed fails =>
      subst fails
      refine ⟨rfl, fun batch => iff_of_false List.not_mem_nil ?_⟩
      rintro ⟨all, reads, _⟩
      cases reads
  | done reads =>
      subst reads
      refine ⟨rfl, fun batch => List.mem_flatMap.trans ?_⟩
      constructor
      · exact fun inside => ⟨_, rfl, inside⟩
      · rintro ⟨all, reads, inside⟩
        cases reads
        exact inside

section Done

variable {files : List (Path × Progress)} {accounts : List Account}
  {results : List (Except Failure (List Violation))}
  (kept : Kept a tree paths bank files accounts) (done : files.map Prod.snd = results.map .done)

include kept done

theorem Kept.exists_result {x : Account} (member : x ∈ accounts) :
    ∃ result, x.progress = .done result := by
  have listed : x.progress ∈ files.map Prod.snd := by
    rw [← kept.files, List.map_map]
    exact List.mem_map.mpr ⟨x, member, rfl⟩
  rw [done] at listed
  obtain ⟨result, _, same⟩ := List.mem_map.mp listed
  exact ⟨result, same.symm⟩

/-- The results are those of all files. -/
theorem Kept.results_eq : results = a.gathered tree paths := by
  have each : accounts.map (·.progress) = accounts.map fun x =>
      .done ((a.said tree (a.outcome tree).config x.path).map fun all =>
        all.flatMap (·.violations)) := by
    refine List.map_congr_left fun x member => ?_
    obtain ⟨result, progress⟩ := kept.exists_result done member
    have fits := kept.fits x member
    rw [progress] at fits ⊢
    rw [fits.of_done.1]
  rw [← kept.files, List.map_map] at done
  have same : results.map Progress.done = (a.gathered tree paths).map Progress.done := by
    rw [← done, ← kept.paths, gathered, List.map_map, List.map_map]
    exact each
  exact (List.map_inj_right fun _ _ equal => Progress.done.inj equal).mp same

theorem Kept.exists_batch_iff {p : Batch → Prop} : (∃ batch ∈ posted accounts, p batch) ↔
    ∃ path ∈ paths, ∃ all, a.said tree (a.outcome tree).config path = .ok all ∧
      ∃ c ∈ all, ∃ batch ∈ c.facts.batches, p batch := by
  have each : ∀ x ∈ accounts, ∀ batch, batch ∈ x.posted ↔
      ∃ all, a.said tree (a.outcome tree).config x.path = .ok all ∧
        ∃ c ∈ all, batch ∈ c.facts.batches := by
    intro x member
    obtain ⟨result, progress⟩ := kept.exists_result done member
    have fits := kept.fits x member
    rw [progress] at fits
    exact fits.of_done.2
  constructor
  · rintro ⟨batch, inside, holds⟩
    obtain ⟨x, member, inside⟩ := List.mem_flatMap.mp inside
    obtain ⟨all, reads, c, said, inside⟩ := (each x member batch).mp inside
    exact ⟨x.path, kept.paths ▸ List.mem_map.mpr ⟨x, member, rfl⟩, all, reads, c, said, batch,
      inside, holds⟩
  · rintro ⟨path, listed, all, reads, c, said, batch, inside, holds⟩
    rw [← kept.paths] at listed
    obtain ⟨x, member, rfl⟩ := List.mem_map.mp listed
    exact ⟨batch, List.mem_flatMap.mpr ⟨x, member, (each x member batch).mpr
      ⟨all, reads, c, said, inside⟩⟩, holds⟩

/-- The bank holds what all files define and use. -/
theorem Kept.holds_all : bank.Holds (Defines a tree (a.outcome tree).config paths)
    (Uses a tree (a.outcome tree).config paths) :=
  kept.holds.congr (fun _ => kept.exists_batch_iff done) fun _ => kept.exists_batch_iff done

end Done

/-! ## The run -/

/-- What a run may return, given whether it has been cancelled. -/
def Expected (a : Analysis) (tree : FileTree) (cancelled : Bool) (result : Except Failure Report) :
    Prop :=
  (result = .error .cancelled ∧ cancelled = true) ∨
    (Alike result (a.run tree false) ∧
      ((∀ paths, a.sources tree (a.outcome tree).config = .ok paths → SpelledOnce paths) →
        result = a.run tree false))

/-- What is known of a run at each stage. -/
inductive Sound (a : Analysis) (tree : FileTree) : State → Prop where
  | starting (cancelled : Bool) : Sound a tree (a.start cancelled)
  | loaded {cancelled cache} : Sound a tree ⟨cancelled, cache, {}, .loaded (a.outcome tree)⟩
  | checking {cancelled cache bank files paths}
      (sources : a.sources tree (a.outcome tree).config = .ok paths)
      (kept : cancelled = false → ∃ accounts, Kept a tree paths bank files accounts) :
      Sound a tree ⟨cancelled, cache, bank, .checking (a.outcome tree) files⟩
  | collecting {cancelled cache bank paths}
      (sources : a.sources tree (a.outcome tree).config = .ok paths)
      (holds : bank.Holds (Defines a tree (a.outcome tree).config paths)
        (Uses a tree (a.outcome tree).config paths)) :
      Sound a tree ⟨cancelled, cache, bank, .collecting (a.outcome tree) (a.gathered tree paths)⟩
  | returned {cancelled cache bank result} (expected : Expected a tree cancelled result) :
      Sound a tree ⟨cancelled, cache, bank, .returned result⟩

theorem Move.cancelled_le {said : Except Failure (List Checked)} {cancelled cancelled' : Bool}
    {progress progress' : Progress}
    (move : Move said cancelled bank progress cancelled' bank' progress')
    (unset : cancelled' = false) : cancelled = false := by
  cases move with
  | say => exact (Bool.or_eq_false_iff.mp unset).1
  | _ => exact unset

/-- One step of a run, stage by stage. What the thread that has waited for the workers finds
the flag to be decides whether the accounts count. -/
theorem Step.sound (builtin : ∀ r ∈ a.rules, r ∈ Rule.all) {s t : State}
    (step : Step a tree workers s t) (sound : Sound a tree s) : Sound a tree t := by
  cases step with
  | @giveUp cancelled _ _ _ load =>
      cases sound with
      | starting =>
          cases cancelled with
          | false => cases load
          | true => exact .returned (.inl ⟨rfl, rfl⟩)
  | @load cancelled _ _ _ _ load =>
      cases sound with
      | starting =>
          cases cancelled with
          | false =>
              cases load
              exact .loaded
          | true => cases load
  | lose sources =>
      cases sound with
      | loaded =>
          refine .returned (.inr ?_)
          rw [run_of_error sources]
          exact ⟨.failure _, fun _ => rfl⟩
  | discover sources =>
      cases sound with
      | loaded => exact .checking sources fun _ => ⟨_, Kept.waiting a tree _⟩
  | work _ _ move room =>
      cases sound with
      | checking sources kept =>
          refine .checking sources fun unset => ?_
          have before := move.cancelled_le unset
          obtain ⟨accounts, kept⟩ := kept before
          rw [before, unset] at move
          exact kept.work move
  | abandon done =>
      cases sound with
      | checking sources kept => exact .returned (.inl ⟨rfl, rfl⟩)
  | join done =>
      cases sound with
      | checking sources kept =>
          obtain ⟨accounts, kept⟩ := kept rfl
          rw [kept.results_eq done]
          exact .collecting sources (kept.holds_all done)
  | fail fails =>
      cases sound with
      | collecting sources holds =>
          refine .returned (.inr ?_)
          rw [run_of_ok builtin sources, fails]
          exact ⟨.failure _, fun _ => rfl⟩
  | finish fine ends =>
      cases sound with
      | collecting sources holds =>
          refine .returned (.inr ⟨?_, fun once => ?_⟩)
          · exact alike_run builtin holds ends sources fine rfl
          · exact eq_run builtin holds ends sources fine rfl (once _ sources)

theorem Happens.sound (builtin : ∀ r ∈ a.rules, r ∈ Rule.all) {s t : State}
    (happens : Happens a tree workers s t) (sound : Sound a tree s) : Sound a tree t := by
  cases happens with
  | step step => exact step.sound builtin sound
  | cancel =>
      cases sound with
      | starting cancelled => exact .starting true
      | loaded => exact .loaded
      | checking sources kept => exact .checking sources fun unset => nomatch unset
      | collecting sources holds => exact .collecting sources holds
      | returned expected => exact .returned (expected.imp (fun known => ⟨known.1, rfl⟩) id)

theorem Reaches.sound (builtin : ∀ r ∈ a.rules, r ∈ Rule.all) {cancelled : Bool} {s : State}
    (reaches : Reaches a tree workers (a.start cancelled) s) : Sound a tree s := by
  induction reaches with
  | refl => exact .starting cancelled
  | tail _ happens ih => exact happens.sound builtin ih

/-- A run that is cancelled before it begins does not get past loading. -/
theorem Reaches.begunCancelled {s : State} (reaches : Reaches a tree workers (a.start true) s) :
    s = a.start true ∨ ∃ cache bank, s = ⟨true, cache, bank, .returned (.error .cancelled)⟩ := by
  induction reaches with
  | refl => exact .inl rfl
  | tail _ happens ih =>
      cases happens with
      | cancel =>
          rcases ih with rfl | ⟨cache, bank, rfl⟩
          · exact .inl rfl
          · exact .inr ⟨cache, bank, rfl⟩
      | step step =>
          rcases ih with rfl | ⟨cache, bank, rfl⟩
          · cases step with
            | giveUp load => exact .inr ⟨_, _, rfl⟩
            | load load => cases load
          · cases step

/-- The result of a run does not depend on its schedule, and no run returns a part of a
result. -/
structure ScheduleIndependent (a : Analysis) (tree : FileTree) (workers : Nat) : Prop where
  /-- A run returns what one file after the other leads to, or that it has been cancelled. It
  has been cancelled then. -/
  returns {cancelled : Bool} {s : State} {result : Except Failure Report}
    (reaches : Reaches a tree workers (a.start cancelled) s)
    (returned : s.stage = .returned result) :
    (result = .error .cancelled ∧ s.cancelled = true) ∨ Alike result (a.run tree false)
  /-- Where every file goes by one path, it is the same result to the letter. -/
  returnsSame {cancelled : Bool} {s : State} {result : Except Failure Report}
    (reaches : Reaches a tree workers (a.start cancelled) s)
    (returned : s.stage = .returned result)
    (once : ∀ paths, a.sources tree (a.outcome tree).config = .ok paths → SpelledOnce paths) :
    (result = .error .cancelled ∧ s.cancelled = true) ∨ result = a.run tree false
  /-- What is put together are the results of all files, and the bank holds the facts of all. -/
  whole {cancelled : Bool} {s : State} {outcome : LoadOutcome}
    {results : List (Except Failure (List Violation))}
    (reaches : Reaches a tree workers (a.start cancelled) s)
    (collecting : s.stage = .collecting outcome results) :
    ∃ paths, a.sources tree (a.outcome tree).config = .ok paths ∧
      results = a.gathered tree paths ∧
      s.bank.Holds (Defines a tree (a.outcome tree).config paths)
        (Uses a tree (a.outcome tree).config paths)
  begunCancelled {s : State} {result : Except Failure Report}
    (reaches : Reaches a tree workers (a.start true) s) (returned : s.stage = .returned result) :
    result = .error .cancelled
  goesOn {cancelled : Bool} {s : State} (some : 0 < workers)
    (reaches : Reaches a tree workers (a.start cancelled) s) :
    (∃ result, s.stage = .returned result) ∨ ∃ t, Step a tree workers s t
  /-- From some time on nothing happens but that the flag is set again. -/
  ends {states : Nat → State}
    (happens : ∀ n, Happens a tree workers (states n) (states (n + 1))) :
    ∃ n, ∀ m, n ≤ m → states (m + 1) = { states m with cancelled := true }

/-- Whatever the order in which any number of workers take the files and post what they find,
and whenever somebody cancels: with the rules there are, the result is the one of the files in
their order, or that the run has been cancelled. -/
theorem run_scheduleIndependent (a : Analysis) (tree : FileTree) (workers : Nat)
    (builtin : ∀ r ∈ a.rules, r ∈ Rule.all) : ScheduleIndependent a tree workers where
  returns reaches returned := by
    have sound := reaches.sound builtin
    cases sound with
    | returned expected =>
        cases returned
        exact expected.imp id And.left
    | _ => cases returned
  returnsSame reaches returned once := by
    have sound := reaches.sound builtin
    cases sound with
    | returned expected =>
        cases returned
        exact expected.imp id fun known => known.2 once
    | _ => cases returned
  whole reaches collecting := by
    have sound := reaches.sound builtin
    cases sound with
    | collecting sources holds =>
        cases collecting
        exact ⟨_, sources, rfl, holds⟩
    | _ => cases collecting
  begunCancelled reaches returned := by
    rcases reaches.begunCancelled with rfl | ⟨cache, bank, rfl⟩
    · cases returned
    · cases returned
      rfl
  goesOn some reaches := exists_step some reaches.hasRoom
  ends happens := eventually_still happens

/-- Two directories that go by the names of source files. -/
def misnamed : FileTree :=
  .directory [("p", .directory [("a.rs", .directory []), ("b.rs", .directory [])])]

/-- All rules on a project without a configuration. -/
def allRules : Analysis :=
  { directory := ⟨"/"⟩, root := ⟨"p"⟩, rules := Rule.all }

/-- The later file fails first, and the run returns how the earlier one fails; or the earlier
one is skipped like a file that is fine, and the run returns that it has been cancelled. -/
theorem run_laterFirst : (∀ r ∈ allRules.rules, r ∈ Rule.all) ∧
    ScheduleIndependent allRules misnamed 2 ∧
    (∃ s, Reaches allRules misnamed 2 (allRules.start false) s ∧
      s.stage = .returned (.error (.unreadable ⟨"/p/a.rs"⟩ .isDirectory))) ∧
    ∃ s, Reaches allRules misnamed 2 (allRules.start false) s ∧
      s.stage = .returned (.error .cancelled) := by
  have sources : allRules.sources misnamed (allRules.outcome misnamed).config =
      .ok [⟨"/p/a.rs"⟩, ⟨"/p/b.rs"⟩] := by cbv
  have first : allRules.said misnamed (allRules.outcome misnamed).config ⟨"/p/a.rs"⟩ =
      .error (.unreadable ⟨"/p/a.rs"⟩ .isDirectory) := by rfl
  have later : allRules.said misnamed (allRules.outcome misnamed).config ⟨"/p/b.rs"⟩ =
      .error (.unreadable ⟨"/p/b.rs"⟩ .isDirectory) := by rfl
  have found : Reaches allRules misnamed 2 (allRules.start false) _ :=
    .tail (.single (.step (.load rfl))) (.step (.discover sources))
  have taken := found.tail (.step (.work [(⟨"/p/a.rs"⟩, .waiting)] [] (.take rfl) (by decide)))
  refine ⟨fun r member => member,
    run_scheduleIndependent allRules misnamed 2 fun r member => member, ?_, ?_⟩
  · have laterDone := taken.tail
      (.step (.work [(⟨"/p/a.rs"⟩, .waiting)] [] (.fail later) (by decide)))
    have firstTaken := laterDone.tail (.step (.work [] _ (.take rfl) (by decide)))
    have allDone := firstTaken.tail (.step (.work [] _ (.fail first) (by decide)))
    have collected := allDone.tail (.step (@Step.join _ _ _ _ _ _ _ [_, _] rfl))
    exact ⟨_, collected.tail (.step (.fail rfl)), rfl⟩
  · have skipped := (taken.tail .cancel).tail (.step (.work [] _ (.skip rfl) (by decide)))
    have allDone := skipped.tail
      (.step (.work [(⟨"/p/a.rs"⟩, .done (.ok []))] [] (.fail later) (by decide)))
    exact ⟨_, allDone.tail (.step (@Step.abandon _ _ _ _ _ _ _ [_, _] rfl)), rfl⟩

end SourceLint.Analysis
