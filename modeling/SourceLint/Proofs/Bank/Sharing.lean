import Mathlib.Data.List.Induction
import Mathlib.Data.List.Nodup
import Mathlib.Logic.Function.Basic
import SourceLint.Proofs.Bank.Contents

/-! # Callers that share a bank

Any number of callers write to one bank and read from it, each in the order of its own program,
and what they ask can follow each other in any way: a request is served as a whole, since it
holds the lock of its container from its beginning to its end. Whatever the order, a set holds
what has been posted to it, the calls stand in the order in which they were posted, and what a
caller has been told is what was there then.
-/

namespace SourceLint

namespace Bank

/-! ## Requests -/

inductive Container where
  | symbols
  | invocations
  | references
  deriving Repr, DecidableEq

/-- What a caller asks for while it holds the lock of a container. -/
inductive Request where
  | post (batch : Batch)
  /-- All that is in a container. -/
  | snapshot (container : Container)
  /-- How much is in a container. -/
  | count (container : Container)
  deriving Repr, DecidableEq

/-- What a caller is told. -/
inductive Answer where
  | done
  | entries (mentions : List Mention)
  | number (n : Nat)
  deriving Repr, DecidableEq

end Bank

/-- The container that a batch is for. -/
def Batch.container : Batch → Bank.Container
  | symbols _ => .symbols
  | invocations _ => .invocations
  | references _ => .references

def Batch.mentions : Batch → List Mention
  | symbols mentions | invocations mentions | references mentions => mentions

namespace Bank

/-- A snapshot of a container. -/
def contents (b : Bank) : Container → List Mention
  | .symbols => b.symbols.toList
  | .invocations => b.invocations.toList
  | .references => b.references.toList

/-- The size that a container keeps of itself. -/
def count (b : Bank) : Container → Nat
  | .symbols => b.symbols.size
  | .invocations => b.invocations.size
  | .references => b.references.size

def serve (b : Bank) : Request → Answer × Bank
  | .post batch => (.done, b.post batch)
  | .snapshot container => (.entries (b.contents container), b)
  | .count container => (.number (b.count container), b)

/-- What a request adds to a container. -/
def Request.adds (container : Container) : Request → List Mention
  | post batch => if batch.container = container then batch.mentions else []
  | snapshot _ | count _ => []

/-- What requests in a row add to a container, one batch after the other. -/
def posted (container : Container) (requests : List Request) : List Mention :=
  requests.flatMap (Request.adds container)

/-- The entries are those put in; of several that compare equal the first is kept. -/
structure IsSetOf (entries put : List Mention) : Prop where
  distinct : (entries.map Mention.key).Nodup
  mem_iff : ∀ m, m ∈ entries ↔ put.find? (·.key = m.key) = some m

/-! ## What a container holds -/

theorem count_eq (b : Bank) (container : Container) :
    b.count container = (b.contents container).length := by
  cases container with
  | symbols => exact Std.TreeSet.length_toList.symm
  | invocations => rfl
  | references => exact Std.TreeSet.length_toList.symm

theorem get?_foldl_insert (t : Std.TreeSet Mention compare) (batch : List Mention) (m : Mention) :
    (batch.foldl (·.insert ·) t).get? m = (t.get? m).or (batch.find? (·.key = m.key)) := by
  induction batch generalizing t with
  | nil => simp
  | cons k rest ih =>
      simp only [List.foldl_cons, ih, Std.TreeSet.get?_insert, Mention.compare_eq_iff,
        List.find?_cons]
      by_cases same : k.key = m.key
      · -- The new entry is found where no equal one has come before it.
        have alike := Std.TreeSet.mem_congr (t := t) (Mention.compare_eq_iff.mpr same)
        by_cases there : m ∈ t
        · obtain ⟨old, found⟩ := Option.isSome_iff_exists.mp
            (Std.TreeSet.mem_iff_isSome_get?.mp there)
          simp [same, alike, there, found]
        · have absent : t.get? m = none := Std.TreeSet.get?_eq_none there
          simp [same, alike, there, absent]
      · simp [same]

theorem nodup_keys_toList (t : Std.TreeSet Mention compare) :
    (t.toList.map Mention.key).Nodup := by
  refine List.pairwise_map.mpr (Std.TreeSet.distinct_toList.imp fun {m k} differ same => ?_)
  exact differ (Mention.compare_eq_iff.mpr same)

/-- A set whose look-ups find what was put in first lists what was put in. -/
theorem isSetOf_toList {t : Std.TreeSet Mention compare} {put : List Mention}
    (found : ∀ m, t.get? m = put.find? (·.key = m.key)) : IsSetOf t.toList put where
  distinct := nodup_keys_toList t
  mem_iff m := by rw [mem_toList_iff_get?, found]

/-- The bank holds what each of its containers has been given, and nothing else. -/
structure Records (b : Bank) (given : Container → List Mention) : Prop where
  symbols : ∀ m, b.symbols.get? m = (given .symbols).find? (·.key = m.key)
  invocations : b.invocations.toList = given .invocations
  references : ∀ m, b.references.get? m = (given .references).find? (·.key = m.key)

section Given

variable {b : Bank} {given : Container → List Mention}

theorem records_empty : Records {} fun _ => [] where
  symbols _ := Std.TreeSet.get?_emptyc
  invocations := rfl
  references _ := Std.TreeSet.get?_emptyc

theorem Records.isSetOf (records : b.Records given) {container : Container}
    (set : container ≠ .invocations) : IsSetOf (b.contents container) (given container) := by
  cases container with
  | symbols => exact isSetOf_toList records.symbols
  | invocations => exact absurd rfl set
  | references => exact isSetOf_toList records.references

/-- A request adds to the container it is for, behind what that has been given before. -/
theorem Records.serve (records : b.Records given) (request : Request) :
    Records (b.serve request).2 fun container => given container ++ request.adds container := by
  obtain ⟨symbols, invocations, references⟩ := records
  -- A container that nothing is added to has been given what it had been given before.
  have list := invocations.trans (List.append_nil _).symm
  have set {t : Std.TreeSet Mention compare} {before : List Mention}
      (found : ∀ m, t.get? m = before.find? (·.key = m.key)) (m : Mention) :
      t.get? m = (before ++ []).find? (·.key = m.key) := by
    rw [List.append_nil, found]
  have set_post {t : Std.TreeSet Mention compare} {before : List Mention}
      (found : ∀ m, t.get? m = before.find? (·.key = m.key)) (mentions : List Mention)
      (m : Mention) : (mentions.foldl (·.insert ·) t).get? m =
        (before ++ mentions).find? (·.key = m.key) := by
    rw [get?_foldl_insert, found, List.find?_append]
  cases request with
  | snapshot _ | count _ => exact ⟨set symbols, list, set references⟩
  | post batch =>
      cases batch with
      | symbols mentions => exact ⟨set_post symbols mentions, list, set references⟩
      | invocations mentions =>
          refine ⟨set symbols, ?_, set references⟩
          change (b.invocations ++ mentions).toList = given .invocations ++ mentions
          rw [Array.toList_appendList, invocations]
      | references mentions => exact ⟨set symbols, list, set_post references mentions⟩

end Given

/-- A request leaves every container as it is to which it adds nothing. -/
theorem contents_serve_of_adds (b : Bank) {request : Request} {container : Container}
    (other : ∀ batch, request = .post batch → batch.container ≠ container) :
    (b.serve request).2.contents container = b.contents container := by
  cases request with
  | snapshot _ | count _ => rfl
  | post batch =>
      have differ := other batch rfl
      cases batch <;> cases container <;> first | rfl | exact absurd rfl differ

/-- What is in a set stays in it as more is put in. -/
theorem IsSetOf.subset {entries later put more : List Mention} (before : IsSetOf entries put)
    (after : IsSetOf later (put ++ more)) : entries ⊆ later := by
  intro m member
  rw [after.mem_iff, List.find?_append, (before.mem_iff m).mp member, Option.some_or]

/-- Sets of what was put in in two orders hold the same entries. -/
theorem IsSetOf.keys_perm {entries entries' put put' : List Mention} (set : IsSetOf entries put)
    (set' : IsSetOf entries' put') (perm : put.Perm put') :
    (entries.map Mention.key).Perm (entries'.map Mention.key) := by
  have mem_keys {entries put : List Mention} (set : IsSetOf entries put) (key) :
      key ∈ entries.map Mention.key ↔ key ∈ put.map Mention.key := by
    constructor
    · intro member
      obtain ⟨m, there, rfl⟩ := List.mem_map.mp member
      exact List.mem_map_of_mem (List.mem_of_find?_eq_some ((set.mem_iff m).mp there))
    · intro member
      obtain ⟨m, there, rfl⟩ := List.mem_map.mp member
      obtain ⟨k, first⟩ : ∃ k, put.find? (·.key = m.key) = some k := by
        rw [← Option.isSome_iff_exists, List.find?_isSome]
        exact ⟨m, there, by simp⟩
      have same : k.key = m.key := by simpa using List.find?_some first
      rw [← same] at first ⊢
      exact List.mem_map_of_mem ((set.mem_iff k).mpr first)
  refine (List.perm_ext_iff_of_nodup set.distinct set'.distinct).mpr fun key => ?_
  rw [mem_keys set, mem_keys set', (perm.map _).mem_iff]

/-! ## Runs -/

/-- A request that has been served. -/
structure Event (κ : Type) where
  caller : κ
  request : Request
  answer : Answer
  deriving DecidableEq

/-- The bank, what each caller has still to ask, and what has been served so far. -/
structure Shared (κ : Type) where
  bank : Bank := {}
  left : κ → List Request
  log : List (Event κ) := []

variable {κ : Type}

/-- What a caller has asked so far. -/
def Shared.asked [DecidableEq κ] (s : Shared κ) (c : κ) : List Request :=
  (s.log.filter (·.caller = c)).map (·.request)

/-- What a container has been given so far. -/
def Shared.given (s : Shared κ) (container : Container) : List Mention :=
  posted container (s.log.map (·.request))

/-- What has been served, without the answers. -/
def Shared.served (s : Shared κ) : List (κ × Request) :=
  s.log.map fun e => (e.caller, e.request)

theorem Shared.given_eq (s : Shared κ) (container : Container) :
    s.given container = posted container (s.served.map Prod.snd) := by
  rw [given, served, List.map_map]
  rfl

section Turns

variable [DecidableEq κ]

/-- The next request of a caller is served, if it has one. -/
def Shared.turn (s : Shared κ) (c : κ) : Shared κ :=
  match s.left c with
  | [] => s
  | request :: rest =>
    let (answer, bank) := s.bank.serve request
    ⟨bank, Function.update s.left c rest, s.log ++ [⟨c, request, answer⟩]⟩

/-- Callers take turns in the order of a schedule. -/
def Shared.runFor (s : Shared κ) (schedule : List κ) : Shared κ :=
  schedule.foldl turn s

/-- What callers with these programs do to an empty bank. -/
def run (programs : κ → List Request) (schedule : List κ) : Shared κ :=
  Shared.runFor { left := programs } schedule

variable {s : Shared κ} {c : κ}

/-- A caller that has nothing left to ask changes nothing, and any other has its next request
served. -/
theorem Shared.turn_cases (s : Shared κ) (c : κ) :
    (s.left c = [] ∧ s.turn c = s) ∨
      ∃ request rest, s.left c = request :: rest ∧
        s.turn c = ⟨(s.bank.serve request).2, Function.update s.left c rest,
          s.log ++ [⟨c, request, (s.bank.serve request).1⟩]⟩ := by
  rw [turn]
  cases left : s.left c with
  | nil => exact .inl ⟨rfl, rfl⟩
  | cons request rest => exact .inr ⟨request, rest, rfl, rfl⟩

theorem Shared.runFor_append (s : Shared κ) (schedule more : List κ) :
    s.runFor (schedule ++ more) = (s.runFor schedule).runFor more :=
  List.foldl_append

theorem Shared.asked_append_left (s : Shared κ) (c d : κ) :
    (s.turn d).asked c ++ (s.turn d).left c = s.asked c ++ s.left c := by
  rcases s.turn_cases d with ⟨_, same⟩ | ⟨request, rest, left, next⟩
  · rw [same]
  · rw [next, asked, asked, List.filter_append, List.map_append]
    by_cases own : d = c
    · subst own
      simp [left]
    · simp [own, Function.update_of_ne (Ne.symm own)]

/-- The bank holds what the log says has been put in. -/
theorem Shared.records_turn (records : s.bank.Records s.given) (c : κ) :
    (s.turn c).bank.Records (s.turn c).given := by
  rcases s.turn_cases c with ⟨_, same⟩ | ⟨request, rest, _, next⟩
  · rwa [same]
  · have served := records.serve request
    rw [next]
    convert served using 2
    simp [Shared.given, posted]

theorem Shared.log_prefix_turn (s : Shared κ) (c : κ) : s.log <+: (s.turn c).log := by
  rcases s.turn_cases c with ⟨_, same⟩ | ⟨request, rest, _, next⟩
  · exact ⟨[], by rw [same, List.append_nil]⟩
  · rw [next]
    exact List.prefix_append _ _

theorem Shared.log_prefix (s : Shared κ) (more : List κ) : s.log <+: (s.runFor more).log := by
  induction more generalizing s with
  | nil => exact List.prefix_refl _
  | cons c more ih => exact (s.log_prefix_turn c).trans (ih (s.turn c))

theorem Shared.given_prefix (s : Shared κ) (more : List κ) (container : Container) :
    s.given container <+: (s.runFor more).given container := by
  obtain ⟨after, same⟩ := s.log_prefix more
  rw [given, given, ← same, posted, posted, List.map_append, List.flatMap_append]
  exact List.prefix_append _ _

theorem run_append (programs : κ → List Request) (schedule more : List κ) :
    run programs (schedule ++ more) = (run programs schedule).runFor more :=
  Shared.runFor_append ..

/-- What a turn preserves, a run from the beginning has at its end. -/
theorem run_induction {programs : κ → List Request} {motive : Shared κ → Prop}
    (first : motive { left := programs }) (turn : ∀ s c, motive s → motive (s.turn c))
    (schedule : List κ) : motive (run programs schedule) := by
  induction schedule using List.reverseRecOn with
  | nil => exact first
  | append_singleton schedule c ih =>
      rw [run_append]
      exact turn _ c ih

theorem records_run (programs : κ → List Request) (schedule : List κ) :
    (run programs schedule).bank.Records (run programs schedule).given :=
  run_induction (motive := fun s => s.bank.Records s.given) records_empty
    (fun _ c records => Shared.records_turn records c) schedule

theorem asked_append_left_run (programs : κ → List Request) (schedule : List κ) (c : κ) :
    (run programs schedule).asked c ++ (run programs schedule).left c = programs c :=
  run_induction (motive := fun s => s.asked c ++ s.left c = programs c) rfl
    (fun s d before => (s.asked_append_left c d).trans before) schedule

/-- Whatever has been told was so when it was told. -/
theorem exists_served (programs : κ → List Request) (schedule : List κ)
    {before after : List (Event κ)} {e : Event κ}
    (split : (run programs schedule).log = before ++ e :: after) :
    ∃ first more, schedule = first ++ more ∧ (run programs first).log = before ∧
      e.answer = ((run programs first).bank.serve e.request).1 := by
  induction schedule using List.reverseRecOn generalizing after with
  | nil => simp [run, Shared.runFor] at split
  | append_singleton schedule c ih =>
      have inside {after : List (Event κ)} (split : (run programs schedule).log = before ++ e :: after) :
          ∃ first more, schedule ++ [c] = first ++ more ∧ (run programs first).log = before ∧
            e.answer = ((run programs first).bank.serve e.request).1 := by
        obtain ⟨first, more, rfl, logged, told⟩ := ih split
        exact ⟨first, more ++ [c], List.append_assoc .., logged, told⟩
      rw [run_append] at split
      rcases (run programs schedule).turn_cases c with ⟨_, same⟩ | ⟨request, rest, _, next⟩
      · rw [Shared.runFor, List.foldl_cons, List.foldl_nil, same] at split
        exact inside split
      · rw [Shared.runFor, List.foldl_cons, List.foldl_nil, next] at split
        rcases List.eq_nil_or_concat after with rfl | ⟨front, last, rfl⟩
        · obtain ⟨logged, told⟩ := List.append_inj' split rfl
          cases told
          exact ⟨schedule, [c], rfl, logged, rfl⟩
        · rw [List.concat_eq_append, ← List.cons_append, ← List.append_assoc] at split
          exact inside (List.append_inj' split rfl).1

theorem Shared.left_turn (s : Shared κ) (c d : κ) :
    (s.turn c).left d = if d = c then (s.left d).tail else s.left d := by
  rcases s.turn_cases c with ⟨empty, same⟩ | ⟨request, rest, left, next⟩
  · rw [same]
    split
    · rename_i own
      rw [own, empty, List.tail_nil]
    · rfl
  · simp only [next, Function.update_apply]
    split
    · rename_i own
      rw [own, left, List.tail_cons]
    · rfl

theorem Shared.left_runFor_replicate (s : Shared κ) (c d : κ) (n : Nat) :
    (s.runFor (List.replicate n c)).left d = if d = c then (s.left d).drop n else s.left d := by
  induction n generalizing s with
  | zero => simp [runFor]
  | succ n ih =>
      rw [List.replicate_succ, runFor, List.foldl_cons]
      refine (ih (s.turn c)).trans ?_
      rw [left_turn]
      split
      · rw [← List.drop_one, List.drop_drop, Nat.add_comm]
      · rfl

/-- Some callers in any number can be served until they have nothing left to ask. -/
theorem Shared.exists_served_all (s : Shared κ) (callers : List κ) :
    ∃ more, ∀ d, (s.runFor more).left d = if d ∈ callers then [] else s.left d := by
  induction callers with
  | nil => exact ⟨[], fun d => by simp [runFor]⟩
  | cons c callers ih =>
      obtain ⟨more, left⟩ := ih
      refine ⟨more ++ List.replicate ((s.runFor more).left c).length c, fun d => ?_⟩
      rw [runFor_append, left_runFor_replicate, left d]
      by_cases own : d = c
      · subst own
        rw [left d]
        simp
      · simp [own]

/-! ## Any two orders -/

theorem Shared.filter_served (s : Shared κ) (c : κ) :
    s.served.filter (·.1 = c) = (s.asked c).map fun request => (c, request) := by
  rw [served, List.filter_map, asked, List.map_map]
  refine List.map_congr_left fun e member => ?_
  have own : e.caller = c := by simpa using (List.mem_filter.mp member).2
  rw [Function.comp_apply, own]

/-- Lists that agree on the share of each caller are the same in some order. -/
theorem perm_of_filter {served served' : List (κ × Request)}
    (same : ∀ c, served.filter (·.1 = c) = served'.filter (·.1 = c)) : served.Perm served' := by
  rw [List.perm_iff_count]
  rintro ⟨c, request⟩
  rw [← List.count_filter (p := (·.1 = c)) (by simp), same, List.count_filter (by simp)]

/-- Two runs that have served the same programs to their ends have put the same mentions into
each container. -/
theorem given_perm {programs : κ → List Request} {schedule other : List κ}
    (finished : ∀ c, (run programs schedule).left c = [])
    (finished' : ∀ c, (run programs other).left c = []) (container : Container) :
    ((run programs schedule).given container).Perm ((run programs other).given container) := by
  have asked (c : κ) : (run programs schedule).asked c = (run programs other).asked c := by
    have first := asked_append_left_run programs schedule c
    have second := asked_append_left_run programs other c
    rw [finished, List.append_nil] at first
    rw [finished', List.append_nil] at second
    rw [first, second]
  rw [Shared.given_eq, Shared.given_eq]
  refine List.Perm.flatMap_right _ (List.Perm.map _ (perm_of_filter fun c => ?_))
  rw [Shared.filter_served, Shared.filter_served, asked]

/-! ## Whole runs -/

/-- What shows at any moment of a run: after any number of turns in any order. -/
structure KeepsAll (programs : κ → List Request) (schedule : List κ) : Prop where
  /-- Each caller is served in the order of its program. -/
  inOrder : ∀ c, (run programs schedule).asked c ++ (run programs schedule).left c = programs c
  /-- A set holds what the batches posted to it so far hold, and nothing else. -/
  sets : ∀ container, container ≠ .invocations →
    IsSetOf ((run programs schedule).bank.contents container)
      ((run programs schedule).given container)
  /-- The calls are those of the batches posted so far, one batch behind the other. -/
  calls : (run programs schedule).bank.contents .invocations =
    (run programs schedule).given .invocations
  counts : ∀ container, (run programs schedule).bank.count container =
    ((run programs schedule).bank.contents container).length
  /-- A turn changes no container but the one that a batch is posted to. -/
  apart : ∀ c container, (∀ batch rest, (run programs schedule).left c = .post batch :: rest →
      batch.container ≠ container) →
    ((run programs schedule).turn c).bank.contents container =
      (run programs schedule).bank.contents container
  /-- What a caller was told is what the bank said after the turns before. -/
  told : ∀ before e after, (run programs schedule).log = before ++ e :: after →
    ∃ first more, schedule = first ++ more ∧ (run programs first).log = before ∧
      e.answer = ((run programs first).bank.serve e.request).1
  /-- What has been told stays as it was told, whatever comes later. -/
  kept : ∀ more, (run programs schedule).log <+: (run programs (schedule ++ more)).log
  /-- A later snapshot of a container holds all that an earlier one holds, and one of the calls
  begins with it. -/
  snapshots : ∀ before between after e e' container entries entries',
    (run programs schedule).log = before ++ e :: (between ++ e' :: after) →
    e.request = .snapshot container → e.answer = .entries entries →
    e'.request = .snapshot container → e'.answer = .entries entries' →
      entries ⊆ entries' ∧ (container = .invocations → entries <+: entries')
  /-- Finitely many callers can be served to their ends from here. -/
  finishes : ∀ callers : List κ, (∀ c, programs c ≠ [] → c ∈ callers) →
    ∃ more, ∀ c, (run programs (schedule ++ more)).left c = []
  /-- Once all have been served, the sets are those of any other order. -/
  sameSets : ∀ other, (∀ c, (run programs schedule).left c = []) →
    (∀ c, (run programs other).left c = []) → ∀ container, container ≠ .invocations →
      (((run programs schedule).bank.contents container).map Mention.key).Perm
        (((run programs other).bank.contents container).map Mention.key)
  /-- And the calls are the same calls. -/
  sameCalls : ∀ other, (∀ c, (run programs schedule).left c = []) →
    (∀ c, (run programs other).left c = []) →
      ((run programs schedule).bank.contents .invocations).Perm
        ((run programs other).bank.contents .invocations)

theorem calls_run (programs : κ → List Request) (schedule : List κ) :
    (run programs schedule).bank.contents .invocations =
      (run programs schedule).given .invocations :=
  (records_run programs schedule).invocations

theorem isSetOf_run (programs : κ → List Request) (schedule : List κ) {container : Container}
    (set : container ≠ .invocations) :
    IsSetOf ((run programs schedule).bank.contents container)
      ((run programs schedule).given container) :=
  (records_run programs schedule).isSetOf set

/-- What a container holds is held after more turns as well. -/
theorem contents_grow (programs : κ → List Request) (first more : List κ) (container : Container) :
    (run programs first).bank.contents container ⊆
        (run programs (first ++ more)).bank.contents container ∧
      (container = .invocations → (run programs first).bank.contents container <+:
        (run programs (first ++ more)).bank.contents container) := by
  have longer : (run programs first).given container <+:
      (run programs (first ++ more)).given container := by
    rw [run_append]
    exact Shared.given_prefix _ more container
  by_cases calls : container = .invocations
  · subst calls
    rw [calls_run, calls_run]
    exact ⟨longer.subset, fun _ => longer⟩
  · refine ⟨?_, fun same => absurd same calls⟩
    obtain ⟨added, same⟩ := longer
    have later := isSetOf_run programs (first ++ more) calls
    rw [← same] at later
    exact (isSetOf_run programs first calls).subset later

theorem snapshots_grow (programs : κ → List Request) (schedule : List κ)
    {before between after : List (Event κ)} {e e' : Event κ} {container : Container}
    {entries entries' : List Mention}
    (split : (run programs schedule).log = before ++ e :: (between ++ e' :: after))
    (asked : e.request = .snapshot container) (told : e.answer = .entries entries)
    (asked' : e'.request = .snapshot container) (told' : e'.answer = .entries entries') :
    entries ⊆ entries' ∧ (container = .invocations → entries <+: entries') := by
  rw [← List.cons_append, ← List.append_assoc] at split
  obtain ⟨second, _, _, logged, said'⟩ := exists_served programs schedule split
  obtain ⟨first, more, rfl, _, said⟩ := exists_served programs second logged
  rw [asked, told] at said
  rw [asked', told'] at said'
  obtain rfl : entries = (run programs first).bank.contents container :=
    Answer.entries.inj said
  obtain rfl : entries' = (run programs (first ++ more)).bank.contents container :=
    Answer.entries.inj said'
  exact contents_grow programs first more container

/-- However the turns of the callers follow each other, the bank loses, doubles and mixes
nothing. -/
theorem run_keepsAll (programs : κ → List Request) (schedule : List κ) :
    KeepsAll programs schedule where
  inOrder := asked_append_left_run programs schedule
  sets _ set := isSetOf_run programs schedule set
  calls := calls_run programs schedule
  counts := count_eq _
  apart c container other := by
    rcases (run programs schedule).turn_cases c with ⟨_, same⟩ | ⟨request, rest, left, next⟩
    · rw [same]
    · rw [next]
      exact contents_serve_of_adds _ fun batch posts => other batch rest (by rw [left, posts])
  told _ _ _ split := exists_served programs schedule split
  kept more := by
    rw [run_append]
    exact Shared.log_prefix _ more
  snapshots _ _ _ _ _ _ _ _ split asked told asked' told' :=
    snapshots_grow programs schedule split asked told asked' told'
  finishes callers all := by
    obtain ⟨more, left⟩ := (run programs schedule).exists_served_all callers
    refine ⟨more, fun c => ?_⟩
    rw [run_append, left]
    split
    · rfl
    · rename_i absent
      have nothing : programs c = [] := by
        by_contra some
        exact absent (all c some)
      exact (List.append_eq_nil_iff.mp
        ((asked_append_left_run programs schedule c).trans nothing)).2
  sameSets other finished finished' container set :=
    (isSetOf_run programs schedule set).keys_perm (isSetOf_run programs other set)
      (given_perm finished finished' container)
  sameCalls other finished finished' := by
    rw [calls_run, calls_run]
    exact given_perm finished finished' .invocations

end Turns

/-- One caller puts in a definition twice over, the second time with its file spelled another way,
and looks at the definitions in between; the other two put in and count calls and references. -/
def threePrograms : Nat → List Request
  | 0 => [.post (.symbols [⟨"f", ⟨⟨"a/b.rs"⟩, 1, 4⟩⟩]), .snapshot .symbols,
      .post (.symbols [⟨"f", ⟨⟨"a//b.rs"⟩, 1, 4⟩⟩, ⟨"g", ⟨⟨"a/b.rs"⟩, 2, 4⟩⟩])]
  | 1 => [.post (.invocations [⟨"g", ⟨⟨"c.rs"⟩, 3, 1⟩⟩, ⟨"g", ⟨⟨"c.rs"⟩, 3, 1⟩⟩]),
      .count .invocations]
  | 2 => [.snapshot .symbols, .post (.references [⟨"f", ⟨⟨"d.rs"⟩, 1, 1⟩⟩]),
      .post (.invocations [⟨"f", ⟨⟨"d.rs"⟩, 9, 1⟩⟩])]
  | _ => []

theorem run_threePrograms :
    ((run threePrograms [0, 2, 1, 0, 2, 0, 2, 1, 1]).log.map (·.answer) =
      [.done, .entries [⟨"f", ⟨⟨"a/b.rs"⟩, 1, 4⟩⟩], .done, .entries [⟨"f", ⟨⟨"a/b.rs"⟩, 1, 4⟩⟩],
        .done, .done, .done, .number 3]) ∧
      ((run threePrograms [0, 2, 1, 0, 2, 0, 2, 1, 1]).bank.contents .symbols =
        [⟨"f", ⟨⟨"a/b.rs"⟩, 1, 4⟩⟩, ⟨"g", ⟨⟨"a/b.rs"⟩, 2, 4⟩⟩]) ∧
      KeepsAll threePrograms [0, 2, 1, 0, 2, 0, 2, 1, 1] :=
  ⟨by decide +kernel, by decide +kernel, run_keepsAll _ _⟩

end Bank

end SourceLint
