import SourceLint.Proofs.Cache.Calls

/-! # What the callers of a cache see

The loader is called once at most, and whoever is given an outcome is given the one it
answered with. What has been loaded by some moment can be read off how far the caller
that is inside has come, and that is the ledger that the steps keep.

Seen from outside, the calls act one after the other, in the order in which their
answers are settled: the cache alone, asked in that order, gives the same answers.
-/

namespace SourceLint.Cache

variable {κ φ : Type}

/-! ## The ledger of a run -/

/-- How often the load was counted and the loader called, and what the loader answered. -/
structure Ledger where
  loads : Nat := 0
  invocations : Nat := 0
  returned : List LoadOutcome := []
  deriving DecidableEq

/-- The ledger after one more event. -/
def Ledger.post (l : Ledger) : Event κ φ → Ledger
  | .counted _ => { l with loads := l.loads + 1 }
  | .invoked .. => { l with invocations := l.invocations + 1 }
  | .returned _ outcome => { l with returned := l.returned ++ [outcome] }
  | _ => l

/-- What has been done in a run. -/
def Ledger.of (events : List (Event κ φ)) : Ledger :=
  events.foldl post {}

/-- What has been done for the caller that has come so far. -/
def Stage.ledger : Stage → Ledger
  | attempting | admitted => {}
  | counted => ⟨1, 0, []⟩
  | loading => ⟨1, 1, []⟩
  | loaded outcome => ⟨1, 1, [outcome]⟩

/-- What has been done by the time that this is the state. -/
def Shared.ledger (s : Shared κ φ) : Ledger :=
  match s.inside, s.cache.slot with
  | some (_, stage), _ => stage.ledger
  | none, some outcome => ⟨1, 1, [outcome]⟩
  | none, none => {}

theorem Shared.ledger_of_inside {s : Shared κ φ} {c : κ} {stage : Stage}
    (inside : s.inside = some (c, stage)) : s.ledger = stage.ledger := by
  rw [ledger, inside]

theorem Stage.ledger_le (stage : Stage) :
    stage.ledger.loads ≤ 1 ∧ stage.ledger.invocations ≤ 1 := by
  cases stage <;> simp [ledger]

theorem Shared.ledger_le (s : Shared κ φ) : s.ledger.loads ≤ 1 ∧ s.ledger.invocations ≤ 1 := by
  rw [ledger]
  split
  · exact Stage.ledger_le _
  · exact ⟨Nat.le_refl 1, Nat.le_refl 1⟩
  · exact ⟨Nat.zero_le 1, Nat.zero_le 1⟩

/-- With an outcome in the slot one load is complete. -/
theorem Shared.Sound.ledger_eq {s : Shared κ φ} (sound : s.Sound) {o : LoadOutcome}
    (filled : s.cache.slot = some o) : s.ledger = ⟨1, 1, [o]⟩ := by
  rw [ledger, sound.free filled, filled]

section Steps

variable [DecidableEq κ] [DecidableEq φ] {s t : Shared κ φ} {e : Event κ φ}

theorem Step.ledger_eq (step : Step s e t) (sound : s.Sound) : t.ledger = s.ledger.post e := by
  cases step with
  | call | cancel | look | hit | answer => rfl
  | enter phase loads empty free =>
      rw [Shared.ledger_of_inside rfl, Shared.ledger, free, empty]
      rfl
  | refuse inside phase set =>
      rw [Shared.ledger_of_inside inside, Shared.ledger, Shared.move_cache,
        sound.empty _ _ inside]
      rfl
  | allow inside | count inside | invoke inside | «return» _ inside =>
      rw [Shared.ledger_of_inside rfl, Shared.ledger_of_inside inside]
      rfl
  | publish inside phase =>
      rw [Shared.ledger_of_inside inside]
      rfl

/-- The count that the cache keeps is that of the ledger. -/
theorem Step.loads_eq (step : Step s e t) (sound : s.Sound)
    (kept : s.cache.loads = s.ledger.loads) : t.cache.loads = t.ledger.loads := by
  rw [step.ledger_eq sound]
  cases step with
  | count inside => exact congrArg (· + 1) kept
  | _ => exact kept

/-- The ledger of a run is the one that its last state tells. -/
theorem Run.ledger_eq {document : Document} {flags : φ → Bool} {events : List (Event κ φ)}
    (run : Run (Shared.fresh document flags) events s) :
    s.ledger = .of events ∧ s.cache.loads = s.ledger.loads := by
  induction run with
  | nil => exact ⟨rfl, rfl⟩
  | snoc run step ih =>
      have sound := run.sound (.fresh document flags)
      rw [step.ledger_eq sound, ih.1, Ledger.of, Ledger.of, List.foldl_append]
      exact ⟨rfl, by rw [step.loads_eq sound ih.2, step.ledger_eq sound, ih.1]; rfl⟩

/-! ## What callers are told -/

/-- The answer that an event settles or gives, and to what request. -/
def Event.reply? : Event κ φ → Option (Request φ × Answer)
  | decided _ request _ answer | answered _ request answer => some (request, answer)
  | _ => none

theorem Answer.Suits.step {r : Request φ} {a : Answer} (suits : a.Suits r s.cache.slot)
    (sound : s.Sound) (step : Step s e t) : a.Suits r t.cache.slot := by
  cases a with
  | outcome o => exact step.slot_eq sound suits
  | empty => exact suits
  | cancelled => exact suits

theorem Step.suits (step : Step s e t) (sound : s.Sound) {r : Request φ} {a : Answer}
    (reply : e.reply? = some (r, a)) : a.Suits r t.cache.slot := by
  cases step with
  | look phase =>
      cases reply
      exact suits_found _
  | hit phase loads filled =>
      cases reply
      exact filled
  | refuse inside phase set =>
      cases reply
      exact Request.eq_tryLoad_of_isCancelled set
  | publish inside phase =>
      cases reply
      rfl
  | answer phase =>
      cases reply
      exact sound.told _ _ _ phase
  | _ => cases reply

/-- Every answer that is settled or given in a run suits the slot at its end. -/
theorem Run.suits {events : List (Event κ φ)} (run : Run s events t) (sound : s.Sound)
    (member : e ∈ events) {r : Request φ} {a : Answer} (reply : e.reply? = some (r, a)) :
    a.Suits r t.cache.slot := by
  induction run with
  | nil => cases member
  | snoc run step ih =>
      rcases List.mem_append.mp member with earlier | last
      · exact (ih earlier).step (run.sound sound) step
      · rw [List.mem_singleton.mp last] at reply
        exact step.suits (run.sound sound) reply

/-- With an outcome in the slot, that is what every answer is settled to be. -/
theorem Run.decided_eq {events : List (Event κ φ)} (run : Run s events t) (sound : s.Sound)
    {o : LoadOutcome} (filled : s.cache.slot = some o) {c : κ} {r : Request φ} {flag : Bool}
    {a : Answer} (member : .decided c r flag a ∈ events) : a = .outcome o := by
  induction run with
  | nil => cases member
  | snoc run step ih =>
      rcases List.mem_append.mp member with earlier | last
      · exact ih earlier
      · have still := run.slot_eq sound filled
        have free := (run.sound sound).free still
        cases List.mem_singleton.mp last
        cases step with
        | look => rw [still, found]
        | hit _ _ other => rw [Option.some.inj (other.symm.trans still)]
        | refuse inside => cases free.symm.trans inside
        | publish inside => cases free.symm.trans inside

/-! ## From call to answer -/

/-- Steps of others leave a caller where it is. -/
theorem Step.phase_of_ne (step : Step s e t) {c : κ} (other : e.caller? ≠ some c) :
    t.phase c = s.phase c := by
  cases step with
  | cancel | allow | count | invoke | «return» => rfl
  | _ => exact Shared.move_phase_of_ne _ _ fun same => other (same ▸ rfl)

/-- A caller comes to its answer by the step that settles it. -/
theorem Step.decided_of_answering (step : Step s e t) (sound : s.Sound) {c : κ}
    (own : e.caller? = some c) {r : Request φ} {a : Answer} (phase : t.phase c = .answering r a) :
    ∃ flag, e = .decided c r flag a := by
  cases step with
  | cancel => cases own
  | allow inside | count inside | invoke inside | «return» _ inside =>
      obtain rfl := Option.some.inj own
      have still := (sound.insider _).mpr (congrArg (Option.map Prod.fst) inside)
      cases (congrArg Phase.isInside phase).symm.trans still
  | call | enter | answer =>
      obtain rfl := Option.some.inj own
      cases (Shared.move_phase_self ..).symm.trans phase
  | look | hit | refuse | publish =>
      obtain rfl := Option.some.inj own
      cases (Shared.move_phase_self ..).symm.trans phase
      exact ⟨_, rfl⟩

/-- A caller that has an answer has made no step since the answer was settled. -/
theorem Run.decided_of_answering {events : List (Event κ φ)} (run : Run s events t)
    (sound : s.Sound) {c : κ} (before : ∀ r a, s.phase c ≠ .answering r a) {r : Request φ}
    {a : Answer} (phase : t.phase c = .answering r a) :
    ∃ earlier flag between mid left, events = earlier ++ .decided c r flag a :: between ∧
      Run s earlier mid ∧ Step mid (.decided c r flag a) left ∧
        ∀ e ∈ between, e.caller? ≠ some c := by
  induction run with
  | nil => exact absurd phase (before r a)
  | @snoc events mid e t run step ih =>
      by_cases own : e.caller? = some c
      · obtain ⟨flag, rfl⟩ := step.decided_of_answering (run.sound sound) own phase
        exact ⟨events, flag, [], mid, t, rfl, run, step, List.forall_mem_nil _⟩
      · rw [step.phase_of_ne own] at phase
        obtain ⟨earlier, flag, between, start, left, rfl, first, settled, others⟩ := ih phase
        refine ⟨earlier, flag, between ++ [e], start, left, by simp, first, settled, ?_⟩
        intro other member
        rcases List.mem_append.mp member with inside | last
        · exact others other inside
        · rw [List.mem_singleton.mp last]
          exact own

/-- Before a caller is answered, it has the answer. -/
theorem Run.answering_of_answered {before after : List (Event κ φ)} {c : κ} {r : Request φ}
    {a : Answer} (run : Run s (before ++ .answered c r a :: after) t) :
    ∃ mid, Run s before mid ∧ mid.phase c = .answering r a := by
  obtain ⟨mid, first, rest⟩ := run.split
  obtain ⟨_, step, _⟩ := rest.cons_inv
  cases step with
  | answer phase => exact ⟨mid, first, phase⟩

/-- With an outcome in the slot, calls that are made are answered with it. -/
theorem Run.answered_eq {events : List (Event κ φ)} (run : Run s events t) (sound : s.Sound)
    {o : LoadOutcome} (filled : s.cache.slot = some o) {c : κ}
    (before : ∀ r a, s.phase c ≠ .answering r a) {r : Request φ} {a : Answer}
    (member : .answered c r a ∈ events) : a = .outcome o := by
  obtain ⟨front, back, rfl⟩ := List.append_of_mem member
  obtain ⟨mid, first, phase⟩ := run.answering_of_answered
  obtain ⟨earlier, flag, between, _, _, rfl, _⟩ :=
    first.decided_of_answering sound before phase
  exact first.decided_eq sound filled (List.mem_append_right _ List.mem_cons_self)

/-- A call is told that it is cancelled where its flag is set and the slot is empty, and the
cache stays as it is. -/
theorem Step.cancelled (sound : s.Sound) {c : κ} {r : Request φ} {flag : Bool}
    (step : Step s (.decided c r flag .cancelled) t) :
    flag = true ∧ s.phase c = .inside r ∧ r.isCancelled s.flags = true ∧ s.cache.slot = none ∧
      t.cache = s.cache := by
  generalize event : Event.decided c r flag .cancelled = e at step
  cases step with
  | refuse inside phase set =>
      cases event
      exact ⟨rfl, phase, set, sound.empty _ _ inside, rfl⟩
  | look phase =>
      cases slot : s.cache.slot <;> simp [slot, found] at event
  | _ => cases event

/-! ## Every call can be answered -/

/-- The event is neither a call nor the setting of a flag, and if the loader answers, it
answers this. -/
def Event.IsInternal (loaded : LoadOutcome) : Event κ φ → Prop
  | called .. | flagged _ => False
  | returned _ outcome => outcome = loaded
  | _ => True

/-- Whatever the loader answers, the caller can come to its answer without a new call or
flag, all others staying where they are, and the slot is free then. -/
def Shared.Settles (s : Shared κ φ) (c : κ) (r : Request φ) : Prop :=
  ∀ loaded, ∃ events t a, Run s events t ∧ (∀ e ∈ events, e.IsInternal loaded) ∧
    t.phase c = .answering r a ∧ t.inside = none ∧ ∀ d, d ≠ c → t.phase d = s.phase d

theorem Shared.settles_of_step {c : κ} {r : Request φ} (step : Step s e t)
    (internal : ∀ loaded, e.IsInternal loaded) (own : e.caller? = some c)
    (settles : t.Settles c r) : s.Settles c r := by
  intro loaded
  obtain ⟨events, last, a, run, internals, phase, free, others⟩ := settles loaded
  refine ⟨e :: events, last, a, Run.cons step run,
    List.forall_mem_cons.mpr ⟨internal loaded, internals⟩, phase, free, ?_⟩
  intro d other
  rw [others d other]
  refine step.phase_of_ne ?_
  rw [own]
  exact fun same => other (Option.some.inj same).symm

theorem Shared.settles_of_last {c : κ} {r : Request φ} {a : Answer} (step : Step s e t)
    (internal : ∀ loaded, e.IsInternal loaded) (own : e.caller? = some c)
    (phase : t.phase c = .answering r a) (free : t.inside = none) : s.Settles c r :=
  settles_of_step step internal own fun _ =>
    ⟨[], t, a, .nil, List.forall_mem_nil _, phase, free, fun _ _ => rfl⟩

theorem Shared.settles_of_returned {c : κ} {r : Request φ} (inside : s.inside = some (c, .loading))
    (settles : ∀ o, ({ s with inside := some (c, .loaded o) } : Shared κ φ).Settles c r) :
    s.Settles c r := by
  intro loaded
  obtain ⟨events, last, a, run, internals, phase, free, others⟩ := settles loaded loaded
  exact ⟨_, last, a, Run.cons (.return loaded inside) run,
    List.forall_mem_cons.mpr ⟨rfl, internals⟩, phase, free, others⟩

theorem Shared.settles_of_loaded {c : κ} {r : Request φ} {o : LoadOutcome}
    (inside : s.inside = some (c, .loaded o)) (phase : s.phase c = .inside r) : s.Settles c r :=
  settles_of_last (.publish inside phase) (fun _ => trivial) rfl (move_phase_self ..) rfl

theorem Shared.settles_of_admitted {c : κ} {r : Request φ} (inside : s.inside = some (c, .admitted))
    (phase : s.phase c = .inside r) : s.Settles c r := by
  refine settles_of_step (.count inside) (fun _ => trivial) rfl ?_
  refine settles_of_step (.invoke rfl) (fun _ => trivial) rfl ?_
  exact settles_of_returned rfl fun _ => settles_of_loaded rfl phase

/-- The caller that is inside comes to its answer by itself. -/
theorem Shared.settles_of_inside {c : κ} {r : Request φ} {stage : Stage}
    (inside : s.inside = some (c, stage)) (phase : s.phase c = .inside r) : s.Settles c r := by
  cases stage with
  | attempting =>
      cases set : r.isCancelled s.flags with
      | true =>
          exact settles_of_last (.refuse inside phase set) (fun _ => trivial) rfl
            (move_phase_self ..) rfl
      | false =>
          refine settles_of_step (.allow inside phase set) (fun _ => trivial) rfl ?_
          exact settles_of_admitted rfl phase
  | admitted => exact settles_of_admitted inside phase
  | counted =>
      refine settles_of_step (.invoke inside) (fun _ => trivial) rfl ?_
      exact settles_of_returned rfl fun _ => settles_of_loaded rfl phase
  | loading =>
      exact settles_of_returned inside fun _ => settles_of_loaded rfl phase
  | loaded o => exact settles_of_loaded inside phase

theorem Shared.settles_of_free {c : κ} {r : Request φ} (phase : s.phase c = .asking r)
    (free : s.inside = none) : s.Settles c r := by
  by_cases looks : r = .get
  · rw [looks] at phase ⊢
    exact settles_of_last (.look phase) (fun _ => trivial) rfl (move_phase_self ..) free
  · cases slot : s.cache.slot with
    | some o =>
        exact settles_of_last (.hit phase looks slot) (fun _ => trivial) rfl (move_phase_self ..) free
    | none =>
        refine settles_of_step (.enter phase looks slot free) (fun _ => trivial) rfl ?_
        exact settles_of_inside rfl (move_phase_self ..)

/-- A caller that waits comes in after the one that is inside. -/
theorem Shared.Sound.answering_of_asking (sound : s.Sound) {c : κ} {r : Request φ}
    (phase : s.phase c = .asking r) (loaded : LoadOutcome) :
    ∃ events t a, Run s events t ∧ (∀ e ∈ events, e.IsInternal loaded) ∧
      t.phase c = .answering r a := by
  cases inside : s.inside with
  | none =>
      obtain ⟨events, t, a, run, internal, answering, _⟩ := settles_of_free phase inside loaded
      exact ⟨events, t, a, run, internal, answering⟩
  | some holder =>
      obtain ⟨d, stage⟩ := holder
      have holds : (s.phase d).isInside := (sound.insider d).mpr (by rw [inside]; rfl)
      have other : c ≠ d := by
        rintro rfl
        rw [phase] at holds
        cases holds
      cases entered : s.phase d with
      | inside q =>
          obtain ⟨first, mid, _, run, internal, _, free, others⟩ :=
            settles_of_inside inside entered loaded
          obtain ⟨events, t, a, rest, internals, answering, _⟩ :=
            settles_of_free ((others c other).trans phase) free loaded
          exact ⟨first ++ events, t, a, run.append rest,
            List.forall_mem_append.mpr ⟨internal, internals⟩, answering⟩
      | _ =>
          rw [entered] at holds
          cases holds

/-- Whoever calls for a load can be given an outcome. -/
theorem Shared.Sound.load_answered (sound : s.Sound) {c : κ} (phase : s.phase c = .idle)
    (loaded : LoadOutcome) :
    ∃ more o t, Run s (.called c .load :: more ++ [.answered c .load (.outcome o)]) t ∧
      ∀ e ∈ more, e.IsInternal loaded := by
  have call : Step s (.called c .load) (s.move c (.asking .load)) := .call phase
  obtain ⟨more, t, a, run, internal, answering⟩ :=
    (call.sound sound).answering_of_asking (move_phase_self ..) loaded
  have suits := (run.sound (call.sound sound)).told c _ _ answering
  cases a with
  | outcome o =>
      exact ⟨more, o, _, .snoc (.cons call run) (.answer answering), internal⟩
  | empty => cases suits
  | cancelled =>
      obtain ⟨_, other⟩ := suits
      cases other

end Steps

/-! ## One call after the other -/

/-- What the cache alone answers to a call whose flag reads so. -/
def respond (loader : Document → LoadOutcome) (c : Cache) : Request φ → Bool → Answer × Cache
  | .load, _ =>
    let (outcome, next) := c.load loader
    (.outcome outcome, next)
  | .tryLoad _, flag =>
    match c.tryLoad loader flag with
    | (some outcome, next) => (.outcome outcome, next)
    | (none, next) => (.cancelled, next)
  | .get, _ => (found c.slot, c)

/-- What it answers to one call after the other. -/
def respondAll (loader : Document → LoadOutcome) :
    Cache → List (Request φ × Bool) → List Answer × Cache
  | c, [] => ([], c)
  | c, (r, flag) :: rest =>
    let (answer, next) := respond loader c r flag
    let (answers, last) := respondAll loader next rest
    (answer :: answers, last)

/-- The call that an event settles, and its answer. -/
def Event.decision? : Event κ φ → Option ((Request φ × Bool) × Answer)
  | decided _ request flag answer => some ((request, flag), answer)
  | _ => none

/-- The calls of a run and their answers, in the order in which these are settled. -/
def decisions (events : List (Event κ φ)) : List ((Request φ × Bool) × Answer) :=
  events.filterMap Event.decision?

/-- The cache as it is once whoever is inside has left without an outcome. -/
def Shared.settled (s : Shared κ φ) : Cache :=
  { s.cache with loads := if s.cache.slot.isSome then 1 else 0 }

theorem respondAll_append (loader : Document → LoadOutcome) (c : Cache)
    (calls more : List (Request φ × Bool)) :
    respondAll loader c (calls ++ more) =
      ((respondAll loader c calls).1 ++ (respondAll loader (respondAll loader c calls).2 more).1,
        (respondAll loader (respondAll loader c calls).2 more).2) := by
  induction calls generalizing c with
  | nil => rfl
  | cons call rest ih => simp only [List.cons_append, respondAll, ih]

/-- A filled cache answers with what is in it. -/
theorem respond_of_filled (loader : Document → LoadOutcome) {c : Cache} {o : LoadOutcome}
    (filled : c.slot = some o) {r : Request φ} (loads : r ≠ .get) (flag : Bool) :
    respond loader c r flag = (.outcome o, c) := by
  cases r with
  | load => simp only [respond, load, filled]
  | tryLoad _ => simp only [respond, tryLoad, load, filled]
  | get => exact absurd rfl loads

section Steps

variable [DecidableEq κ] [DecidableEq φ] {s t : Shared κ φ} {e : Event κ φ}

/-- A call is settled as the cache alone would answer it then. -/
theorem Step.respond_eq (step : Step s e t) (sound : s.Sound) {o : LoadOutcome}
    (only : ∀ p, t.cache.slot = some p → p = o) :
    respondAll (fun _ => o) s.settled ((decisions [e]).map Prod.fst) =
      ((decisions [e]).map Prod.snd, t.settled) := by
  cases step with
  | call | cancel | enter | allow | count | invoke | «return» | answer => rfl
  | look => rfl
  | hit phase loads filled =>
      have still : s.settled.slot = some _ := filled
      simp only [decisions, List.filterMap, Event.decision?, List.map, respondAll]
      rw [respond_of_filled _ still loads]
      rfl
  | refuse inside phase set =>
      obtain ⟨flag, rfl⟩ := Request.eq_tryLoad_of_isCancelled set
      have empty : s.settled.slot = none := sound.empty _ _ inside
      simp only [decisions, List.filterMap, Event.decision?, List.map, respondAll, respond,
        tryLoad, empty]
      rfl
  | @publish c r p inside phase =>
      obtain rfl := only p rfl
      have empty : s.cache.slot = none := sound.empty _ _ inside
      cases r with
      | load => simp [decisions, Event.decision?, respondAll, respond, load, Shared.settled, empty]
      | tryLoad flag =>
          simp [decisions, Event.decision?, respondAll, respond, tryLoad, load, Shared.settled,
            empty]
      | get => exact absurd phase (sound.loads c)

/-- Calls act one after the other, in the order in which they are settled. -/
theorem Run.respondAll_eq {events : List (Event κ φ)} (run : Run s events t) (sound : s.Sound)
    {o : LoadOutcome} (only : ∀ p, t.cache.slot = some p → p = o) :
    respondAll (fun _ => o) s.settled ((decisions events).map Prod.fst) =
      ((decisions events).map Prod.snd, t.settled) := by
  induction run with
  | nil => rfl
  | snoc run step ih =>
      have before := ih fun p filled => only p (step.slot_eq (run.sound sound) filled)
      have last := step.respond_eq (run.sound sound) only
      rw [decisions, List.filterMap_append, List.map_append, List.map_append, respondAll_append]
      rw [decisions] at before last
      rw [before, last]

end Steps

/-! ## Whole runs -/

/-- What a run of calls on a fresh cache shows, `s` being the state at its end. -/
structure ComputesOnce [DecidableEq κ] [DecidableEq φ] (document : Document) (flags : φ → Bool)
    (events : List (Event κ φ)) (s : Shared κ φ) : Prop where
  /-- The loader is called once at most, and for the document. -/
  invoked : (Ledger.of events).invocations ≤ 1 ∧ ∀ c d, .invoked c d ∈ events → d = document
  /-- The count of loads is one at most, and is one once the slot is filled. -/
  counted : s.cache.loads ≤ 1 ∧ (s.cache.slot.isSome → s.cache.loads = 1)
  /-- What the slot holds is what the loader answered, in its only answer. -/
  kept : ∀ o, s.cache.slot = some o → (Ledger.of events).returned = [o]
  /-- So is every outcome that a caller is given. -/
  given : ∀ c r o, .answered c r (.outcome o) ∈ events → (Ledger.of events).returned = [o]
  /-- Only a look at the slot finds it empty, and only a call with a flag is cancelled. -/
  refused : ∀ c r, (.answered c r .empty ∈ events → r = .get) ∧
    (.answered c r .cancelled ∈ events → ∃ flag, r = .tryLoad flag)
  /-- Who is cancelled has found, after its call and at its last step before the answer, the
  slot empty and its own flag set, and has left the cache as it was. -/
  cancelled : ∀ before after c r, events = before ++ .answered c r .cancelled :: after →
    ∃ flag earlier between mid left, r = .tryLoad flag ∧
      before = earlier ++ .decided c r true .cancelled :: between ∧
      (∀ e ∈ between, e.caller? ≠ some c) ∧ Run (.fresh document flags) earlier mid ∧
      mid.phase c = .inside r ∧ mid.cache.slot = none ∧ mid.flags flag = true ∧
      Step mid (.decided c r true .cancelled) left ∧ left.cache = mid.cache
  /-- Once a call has been given an outcome, no answer is settled to be anything else. -/
  settled : ∀ before after c r o, events = before ++ .answered c r (.outcome o) :: after →
    ∀ d q flag a, .decided d q flag a ∈ after → a = .outcome o
  /-- And no later call is answered with anything else. -/
  later : ∀ before between after c r o d q,
    events = before ++ .answered c r (.outcome o) :: (between ++ .called d q :: after) →
      ∀ q' a, .answered d q' a ∈ after → a = .outcome o
  /-- Whoever now calls for a load can be given an outcome, whatever the loader answers. -/
  answered : ∀ c, s.phase c = .idle → ∀ loaded, ∃ more o t,
    Run s (.called c .load :: more ++ [.answered c .load (.outcome o)]) t ∧
      ∀ e ∈ more, e.IsInternal loaded
  /-- The cache alone, asked by one call after the other, gives the same answers. -/
  serial : ∀ o, (∀ p, s.cache.slot = some p → p = o) →
    respondAll (fun _ => o) { document } ((decisions events).map Prod.fst) =
      ((decisions events).map Prod.snd, s.settled)

section Runs

variable [DecidableEq κ] [DecidableEq φ] {document : Document} {flags : φ → Bool}
  {events : List (Event κ φ)} {s : Shared κ φ}

theorem Run.invoked_document (run : Run (Shared.fresh document flags) events s) {c : κ}
    {d : Document} (member : .invoked c d ∈ events) : d = document := by
  induction run with
  | nil => cases member
  | snoc run step ih =>
      rcases List.mem_append.mp member with earlier | last
      · exact ih earlier
      · cases List.mem_singleton.mp last
        cases step with
        | invoke => exact run.document_eq

theorem Run.returned_eq (run : Run (Shared.fresh document flags) events s) {o : LoadOutcome}
    (filled : s.cache.slot = some o) : (Ledger.of events).returned = [o] := by
  rw [← run.ledger_eq.1, (run.sound (.fresh document flags)).ledger_eq filled]

/-- After an outcome has been given it is in the slot, and nobody is inside. -/
theorem Run.filled_of_answered {before after : List (Event κ φ)} {c : κ} {r : Request φ}
    {o : LoadOutcome}
    (run : Run (Shared.fresh document flags) (before ++ .answered c r (.outcome o) :: after) s) :
    ∃ mid : Shared κ φ, mid.Sound ∧ mid.cache.slot = some o ∧ Run mid after s := by
  obtain ⟨mid, first, rest⟩ := run.split
  obtain ⟨next, step, rest⟩ := rest.cons_inv
  have sound := first.sound (.fresh document flags)
  exact ⟨next, step.sound sound, step.suits sound rfl, rest⟩

/-- However the steps of the callers follow each other, the load happens once. -/
theorem run_computesOnce (run : Run (Shared.fresh document flags) events s) :
    ComputesOnce document flags events s := by
  have fresh : (Shared.fresh document flags : Shared κ φ).Sound := .fresh document flags
  have sound := run.sound fresh
  obtain ⟨ledger, loads⟩ := run.ledger_eq
  constructor
  case invoked => exact ⟨ledger ▸ s.ledger_le.2, fun _ _ => run.invoked_document⟩
  case counted =>
    refine ⟨loads ▸ s.ledger_le.1, fun filled => ?_⟩
    obtain ⟨o, filled⟩ := Option.isSome_iff_exists.mp filled
    rw [loads, sound.ledger_eq filled]
  case kept => exact fun o => run.returned_eq
  case given => exact fun c r o member => run.returned_eq (run.suits fresh member rfl)
  case refused =>
    intro c r
    exact ⟨fun member => run.suits fresh member rfl, fun member => run.suits fresh member rfl⟩
  case cancelled =>
    rintro before after c r rfl
    obtain ⟨mid, first, phase⟩ := run.answering_of_answered
    obtain ⟨earlier, read, between, start, left, rfl, prior, step, others⟩ :=
      first.decided_of_answering fresh (fun _ _ => nofun) phase
    obtain ⟨rfl, entered, set, empty, same⟩ := step.cancelled (prior.sound fresh)
    obtain ⟨flag, rfl⟩ := Request.eq_tryLoad_of_isCancelled set
    exact ⟨flag, earlier, between, start, left, rfl, rfl, others, prior, entered, empty, set,
      step, same⟩
  case settled =>
    rintro before after c r o rfl d q flag a member
    obtain ⟨mid, sound, filled, rest⟩ := run.filled_of_answered
    exact rest.decided_eq sound filled member
  case later =>
    rintro before between after c r o d q rfl q' a member
    obtain ⟨mid, sound, filled, rest⟩ := run.filled_of_answered
    obtain ⟨called, first, rest⟩ := rest.split
    obtain ⟨next, step, rest⟩ := rest.cons_inv
    have still := first.sound sound
    refine rest.answered_eq (step.sound still) (step.slot_eq still (first.slot_eq sound filled))
      ?_ member
    cases step with
    | call phase =>
        rw [Shared.move_phase_self]
        exact fun _ _ => nofun
  case answered => exact fun c idle loaded => sound.load_answered idle loaded
  case serial => exact fun o only => run.respondAll_eq fresh only

end Runs

/-- Caller 0 is cancelled while caller 1 waits, comes in after it and loads. The cancelled
flag does not keep caller 2 from the outcome, and caller 0 is told last. -/
def handedOver (o : LoadOutcome) : List (Event Nat Nat) :=
  [.flagged 0, .called 0 (.tryLoad 0), .called 1 .load, .entered 0, .called 2 .get,
    .decided 2 .get false .empty, .answered 2 .get .empty,
    .decided 0 (.tryLoad 0) true .cancelled, .entered 1, .admitted 1, .counted 1,
    .invoked 1 .absent, .returned 1 o, .decided 1 .load false (.outcome o),
    .answered 1 .load (.outcome o), .called 2 (.tryLoad 0),
    .decided 2 (.tryLoad 0) true (.outcome o), .answered 2 (.tryLoad 0) (.outcome o),
    .answered 0 (.tryLoad 0) .cancelled]

theorem run_handedOver : ∃ s : Shared Nat Nat,
    Run (.fresh .absent fun _ => false) (handedOver {}) s ∧ s.cache = ⟨.absent, some {}, 1⟩ ∧
      ComputesOnce .absent (fun _ => false) (handedOver {}) s := by
  have run : Run (.fresh .absent fun _ => false : Shared Nat Nat) (handedOver {}) _ :=
    .cons (.cancel 0) <| .cons (.call rfl) <| .cons (.call rfl) <|
    .cons (.enter rfl nofun rfl rfl) <| .cons (.call rfl) <| .cons (.look rfl) <|
    .cons (.answer rfl) <| .cons (.refuse rfl rfl rfl) <| .cons (.enter rfl nofun rfl rfl) <|
    .cons (.allow rfl rfl rfl) <| .cons (.count rfl) <| .cons (.invoke rfl) <|
    .cons (.return {} rfl) <| .cons (.publish rfl rfl) <| .cons (.answer rfl) <|
    .cons (.call rfl) <| .cons (.hit rfl nofun rfl) <| .cons (.answer rfl) <|
    .cons (.answer rfl) .nil
  exact ⟨_, run, rfl, run_computesOnce run⟩

end SourceLint.Cache
