import Mathlib.Data.Prod.Lex
import Mathlib.Order.OrderIsoNat
import SourceLint.Proofs.Analysis.Workers

/-! # Runs come to an end

Every step of a run leaves less to do, and as long as there is a worker a run that has not
returned can go on. So a run returns whatever the order of its steps: nothing waits for
something that never happens.
-/

namespace SourceLint.Analysis

/-! ## What is left to do -/

/-- What is left to do with a file, for so many rules. A rule takes a move to speak and three
to post. -/
def Progress.left (rules : Nat) : Progress → Nat
  | waiting => 4 * rules + 3
  | taken => 4 * rules + 2
  | checking left batches _ => 4 * left.length + batches.length + 1
  | done _ => 0

/-- What is left to do with the files. -/
def work (rules : Nat) : List (Path × Progress) → Nat
  | [] => 0
  | file :: rest => file.2.left rules + work rules rest

/-- The stages that are still to come, and what is left to do in this one. -/
def State.left (a : Analysis) (s : State) : Nat ×ₗ Nat :=
  match s.stage with
  | .starting => toLex (4, 0)
  | .loaded _ => toLex (3, 0)
  | .checking outcome files => toLex (2, work (a.enabledRules outcome.config).length files)
  | .collecting _ _ => toLex (1, 0)
  | .returned _ => toLex (0, 0)

variable {a : Analysis} {tree : FileTree} {workers : Nat} {s t : State}

theorem length_said {config : Config} {path : Path} {all : List Checked}
    (reads : a.said tree config path = .ok all) : all.length = (a.enabledRules config).length := by
  unfold said checkEach at reads
  split at reads
  · cases reads
  · split at reads
    · cases reads
    · cases reads
      exact List.length_map ..

theorem Move.left_lt {config : Config} {path : Path} {cancelled cancelled' : Bool}
    {bank bank' : Bank} {progress progress' : Progress}
    (move : Move (a.said tree config path) cancelled bank progress cancelled' bank' progress') :
    progress'.left (a.enabledRules config).length <
      progress.left (a.enabledRules config).length := by
  cases move with
  | skip set => simp only [Progress.left]; omega
  | take unset => simp only [Progress.left]; omega
  | fail fails => simp only [Progress.left]; omega
  | read reads =>
      simp only [Progress.left, length_said reads, List.length_nil]
      omega
  | say =>
      simp only [Progress.left, List.length_cons, Facts.batches, List.length_nil]
      omega
  | post =>
      simp only [Progress.left, List.length_cons]
      omega
  | finish => simp only [Progress.left]; omega

theorem work_append_cons (rules : Nat) (before after : List (Path × Progress))
    (file : Path × Progress) : work rules (before ++ file :: after) =
      work rules before + (file.2.left rules + work rules after) := by
  induction before with
  | nil => rw [List.nil_append, work, work, Nat.zero_add]
  | cons first rest ih => rw [List.cons_append, work, work, ih, Nat.add_assoc]

theorem Step.left_lt (step : Step a tree workers s t) : t.left a < s.left a := by
  cases step with
  | work _ _ move room =>
      have less := move.left_lt
      refine Prod.Lex.toLex_lt_toLex.mpr (.inr ⟨rfl, ?_⟩)
      rw [work_append_cons, work_append_cons]
      exact Nat.add_lt_add_left (Nat.add_lt_add_right less _) _
  | _ => exact Prod.Lex.toLex_lt_toLex.mpr (.inl (by dsimp only; omega))

theorem Happens.left_le (happens : Happens a tree workers s t) : t.left a ≤ s.left a := by
  cases happens with
  | step step => exact le_of_lt step.left_lt
  | cancel => exact le_refl _

/-- However things happen, from some time on nothing does but that the flag is set again. -/
theorem eventually_still {states : Nat → State}
    (happens : ∀ n, Happens a tree workers (states n) (states (n + 1))) :
    ∃ n, ∀ m, n ≤ m → states (m + 1) = { states m with cancelled := true } := by
  have falls : Antitone fun n => (states n).left a :=
    antitone_nat_of_succ_le fun n => (happens n).left_le
  obtain ⟨n, constant⟩ := WellFoundedLT.antitone_chain_condition falls
  refine ⟨n, fun m later => ?_⟩
  have same : (states m).left a = (states (m + 1)).left a := by
    rw [← constant m later, ← constant (m + 1) (by omega)]
  generalize next : states (m + 1) = t at same
  have last := happens m
  rw [next] at last
  cases last with
  | step step => exact absurd same (ne_of_gt step.left_lt)
  | cancel => rfl

/-! ## Going on -/

/-- Workers have no more files than there are workers. -/
def State.HasRoom (workers : Nat) (s : State) : Prop :=
  ∀ outcome files, s.stage = .checking outcome files → busy files ≤ workers

theorem busy_append_cons (before after : List (Path × Progress)) (file : Path × Progress) :
    busy (before ++ file :: after) =
      busy before + (busy after + if file.2.isBusy then 1 else 0) := by
  simp only [busy, List.countP_append, List.countP_cons]

theorem busy_waiting (paths : List Path) :
    busy (paths.map fun path => (path, Progress.waiting)) = 0 := by
  refine List.countP_eq_zero.mpr fun file member => ?_
  obtain ⟨path, _, rfl⟩ := List.mem_map.mp member
  exact Bool.false_ne_true

theorem Happens.hasRoom (happens : Happens a tree workers s t) (room : s.HasRoom workers) :
    t.HasRoom workers := by
  intro outcome files stage
  cases happens with
  | cancel => exact room outcome files stage
  | step step =>
      cases step with
      | discover sources =>
          cases stage
          rw [busy_waiting]
          exact Nat.zero_le _
      | work _ _ move fits =>
          cases stage
          exact fits
      | _ => cases stage

theorem Reaches.hasRoom {cancelled : Bool}
    (reaches : Reaches a tree workers (a.start cancelled) s) : s.HasRoom workers := by
  induction reaches with
  | refl =>
      intro outcome files stage
      cases stage
  | tail _ happens ih => exact happens.hasRoom ih

/-- A worker that has a file can go on with it. -/
theorem exists_move (said : Except Failure (List Checked)) (cancelled : Bool) (bank : Bank)
    {progress : Progress} (has : progress.isBusy = true) :
    ∃ cancelled' bank' progress', Move said cancelled bank progress cancelled' bank' progress' := by
  cases progress with
  | waiting => cases has
  | taken =>
      cases said with
      | error failure => exact ⟨_, _, _, .fail rfl⟩
      | ok all => exact ⟨_, _, _, .read rfl⟩
  | checking left batches found =>
      cases batches with
      | cons batch batches => exact ⟨_, _, _, .post⟩
      | nil =>
          cases left with
          | cons c left => exact ⟨_, _, _, .say⟩
          | nil => exact ⟨_, _, _, .finish⟩
  | done result => cases has

theorem exists_results {files : List (Path × Progress)}
    (done : ∀ file ∈ files, ∃ result, file.2 = .done result) :
    ∃ results : List (Except Failure (List Violation)),
      files.map Prod.snd = results.map .done := by
  induction files with
  | nil => exact ⟨[], rfl⟩
  | cons file rest ih =>
      obtain ⟨result, first⟩ := done file List.mem_cons_self
      obtain ⟨results, others⟩ := ih fun other member => done other (List.mem_cons_of_mem _ member)
      refine ⟨result :: results, ?_⟩
      rw [List.map_cons, List.map_cons, first, others]

/-- With a worker, a run that checks files goes on until all are done. -/
theorem exists_step_checking (some : 0 < workers) (cancelled : Bool) (cache : Cache) (bank : Bank)
    (outcome : LoadOutcome) {files : List (Path × Progress)} (room : busy files ≤ workers) :
    ∃ t, Step a tree workers ⟨cancelled, cache, bank, .checking outcome files⟩ t := by
  -- A worker that is busy can go on. With none busy, a file that waits can be taken or skipped; with
  -- none waiting, all are done.
  by_cases has : ∃ file ∈ files, file.2.isBusy = true
  · obtain ⟨⟨path, progress⟩, member, has⟩ := has
    obtain ⟨before, after, rfl⟩ := List.append_of_mem member
    obtain ⟨cancelled', bank', progress', move⟩ :=
      exists_move (a.said tree outcome.config path) cancelled bank has
    refine ⟨_, .work before after move ?_⟩
    rw [busy_append_cons] at room ⊢
    rw [if_pos has] at room
    split <;> omega
  · have idle : busy files = 0 :=
      List.countP_eq_zero.mpr fun file member => fun has' => has ⟨file, member, has'⟩
    by_cases waits : ∃ path, (path, Progress.waiting) ∈ files
    · obtain ⟨path, member⟩ := waits
      obtain ⟨before, after, rfl⟩ := List.append_of_mem member
      rw [busy_append_cons] at idle
      cases cancelled with
      | false =>
          refine ⟨_, .work before after (.take rfl) ?_⟩
          rw [busy_append_cons]
          split <;> omega
      | true =>
          refine ⟨_, .work before after (.skip rfl) ?_⟩
          rw [busy_append_cons]
          split <;> omega
    · have done : ∀ file ∈ files, ∃ result, file.2 = .done result := by
        rintro ⟨path, progress⟩ member
        cases progress with
        | waiting => exact absurd ⟨path, member⟩ waits
        | done result => exact ⟨result, rfl⟩
        | _ => exact absurd ⟨_, member, rfl⟩ has
      obtain ⟨results, done⟩ := exists_results done
      cases cancelled with
      | false => exact ⟨_, .join done⟩
      | true => exact ⟨_, .abandon done⟩

/-- With a worker, a run goes on until it has returned. -/
theorem exists_step (some : 0 < workers) (room : s.HasRoom workers) :
    (∃ result, s.stage = .returned result) ∨ ∃ t, Step a tree workers s t := by
  obtain ⟨cancelled, cache, bank, stage⟩ := s
  cases stage with
  | starting =>
      cases load : cache.tryLoad (a.load tree) cancelled with
      | mk outcome? cache' =>
          cases outcome? with
          | none => exact .inr ⟨_, .giveUp load⟩
          | some outcome => exact .inr ⟨_, .load load⟩
  | loaded outcome =>
      cases sources : a.sources tree outcome.config with
      | error failure => exact .inr ⟨_, .lose sources⟩
      | ok paths => exact .inr ⟨_, .discover sources⟩
  | checking outcome files =>
      exact .inr (exists_step_checking some cancelled cache bank outcome (room _ _ rfl))
  | collecting outcome results =>
      cases failure : failure? a.strict results with
      | some f => exact .inr ⟨_, .fail failure⟩
      | none => exact .inr ⟨_, .finish failure (Rule.endsAll_finishAll _ _)⟩
  | returned result => exact .inl ⟨result, rfl⟩

end SourceLint.Analysis
