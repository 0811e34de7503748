import Mathlib.Logic.Function.Basic
import SourceLint.Config.Cache

/-! # Calls on a shared cache

Any number of callers use one cache at the same time, each with one call after the
other, and flags are set while they do. What a call does is cut into steps, and a run
is any order of the steps of all callers.

The slot lets one caller in at a time. Whoever is in reads its own flag, counts the
load, has the loader run, and leaves the outcome behind; or finds its flag set and
leaves with the slot as it was. Nothing is known of the loader but that it answers.
-/

namespace SourceLint.Cache

/-- What a caller asks for. -/
inductive Request (φ : Type) where
  | load
  | tryLoad (flag : φ)
  | get
  deriving Repr, DecidableEq

/-- What a caller is told. -/
inductive Answer where
  | outcome (loaded : LoadOutcome)
  | empty
  | cancelled
  deriving Repr, DecidableEq

/-- How far the caller that is in has come. -/
inductive Stage where
  /-- It has yet to read its flag. -/
  | attempting
  | admitted
  | counted
  | loading
  /-- The loader has answered. -/
  | loaded (outcome : LoadOutcome)
  deriving Repr, DecidableEq

/-- What a caller is doing. -/
inductive Phase (φ : Type) where
  | idle
  /-- It has called, and has not found the slot filled or free yet. -/
  | asking (request : Request φ)
  | inside (request : Request φ)
  /-- Its answer is settled. -/
  | answering (request : Request φ) (answer : Answer)
  deriving Repr, DecidableEq

/-- What happens at a step. -/
inductive Event (κ φ : Type) where
  | called (caller : κ) (request : Request φ)
  | flagged (flag : φ)
  | entered (caller : κ)
  | admitted (caller : κ)
  | counted (caller : κ)
  /-- The loader is called. -/
  | invoked (caller : κ) (document : Document)
  /-- The loader answers. -/
  | returned (caller : κ) (outcome : LoadOutcome)
  /-- The answer to a call is settled, the flag being as the call has read it. -/
  | decided (caller : κ) (request : Request φ) (flag : Bool) (answer : Answer)
  | answered (caller : κ) (request : Request φ) (answer : Answer)

/-- A cache and those who use it. -/
structure Shared (κ φ : Type) where
  cache : Cache
  flags : φ → Bool
  /-- The caller that the slot has let in. -/
  inside : Option (κ × Stage) := none
  phase : κ → Phase φ

variable {κ φ : Type}

/-- The flag of a request is set. -/
def Request.isCancelled (flags : φ → Bool) : Request φ → Bool
  | tryLoad flag => flags flag
  | _ => false

/-- What a look at the slot tells. -/
def found : Option LoadOutcome → Answer
  | some outcome => .outcome outcome
  | none => .empty

/-- The caller of an event. -/
def Event.caller? : Event κ φ → Option κ
  | called c _ | entered c | admitted c | counted c | invoked c _ | returned c _
  | decided c _ _ _ | answered c _ _ => some c
  | flagged _ => none

/-- Nobody has called yet; flags may be set already. -/
def Shared.fresh (document : Document) (flags : φ → Bool) : Shared κ φ where
  cache := { document }
  flags := flags
  phase := fun _ => .idle

section Moves

variable [DecidableEq κ]

/-- The state with one caller in another phase. -/
def Shared.move (s : Shared κ φ) (c : κ) (phase : Phase φ) : Shared κ φ :=
  { s with phase := Function.update s.phase c phase }

@[grind =]
theorem Shared.move_phase (s : Shared κ φ) (c d : κ) (phase : Phase φ) :
    (s.move c phase).phase d = if d = c then phase else s.phase d :=
  Function.update_apply ..

@[simp, grind =]
theorem Shared.move_cache (s : Shared κ φ) (c : κ) (phase : Phase φ) :
    (s.move c phase).cache = s.cache :=
  rfl

@[simp, grind =]
theorem Shared.move_inside (s : Shared κ φ) (c : κ) (phase : Phase φ) :
    (s.move c phase).inside = s.inside :=
  rfl

@[simp]
theorem Shared.move_phase_self (s : Shared κ φ) (c : κ) (phase : Phase φ) :
    (s.move c phase).phase c = phase := by
  rw [move_phase, if_pos rfl]

@[simp]
theorem Shared.move_phase_of_ne (s : Shared κ φ) {c d : κ} (phase : Phase φ) (other : d ≠ c) :
    (s.move c phase).phase d = s.phase d := by
  rw [move_phase, if_neg other]

end Moves

section Steps

variable [DecidableEq κ] [DecidableEq φ]

/-- What one step does. -/
inductive Step (s : Shared κ φ) : Event κ φ → Shared κ φ → Prop where
  | call {c r} (phase : s.phase c = .idle) : Step s (.called c r) (s.move c (.asking r))
  | cancel (flag : φ) :
      Step s (.flagged flag) { s with flags := Function.update s.flags flag true }
  | look {c} (phase : s.phase c = .asking .get) :
      Step s (.decided c .get false (found s.cache.slot))
        (s.move c (.answering .get (found s.cache.slot)))
  | hit {c r o} (phase : s.phase c = .asking r) (loads : r ≠ .get)
      (filled : s.cache.slot = some o) :
      Step s (.decided c r (r.isCancelled s.flags) (.outcome o))
        (s.move c (.answering r (.outcome o)))
  | enter {c r} (phase : s.phase c = .asking r) (loads : r ≠ .get)
      (empty : s.cache.slot = none) (free : s.inside = none) :
      Step s (.entered c) { s.move c (.inside r) with inside := some (c, .attempting) }
  | refuse {c r} (inside : s.inside = some (c, .attempting)) (phase : s.phase c = .inside r)
      (set : r.isCancelled s.flags = true) :
      Step s (.decided c r true .cancelled)
        { s.move c (.answering r .cancelled) with inside := none }
  | allow {c r} (inside : s.inside = some (c, .attempting)) (phase : s.phase c = .inside r)
      (unset : r.isCancelled s.flags = false) :
      Step s (.admitted c) { s with inside := some (c, .admitted) }
  | count {c} (inside : s.inside = some (c, .admitted)) :
      Step s (.counted c) { s with
        cache := { s.cache with loads := s.cache.loads + 1 }, inside := some (c, .counted) }
  | invoke {c} (inside : s.inside = some (c, .counted)) :
      Step s (.invoked c s.cache.document) { s with inside := some (c, .loading) }
  | return {c} (o : LoadOutcome) (inside : s.inside = some (c, .loading)) :
      Step s (.returned c o) { s with inside := some (c, .loaded o) }
  | publish {c r o} (inside : s.inside = some (c, .loaded o)) (phase : s.phase c = .inside r) :
      Step s (.decided c r false (.outcome o)) { s.move c (.answering r (.outcome o)) with
        cache := { s.cache with slot := some o }, inside := none }
  | answer {c r a} (phase : s.phase c = .answering r a) :
      Step s (.answered c r a) (s.move c .idle)

/-- What steps in a row do. -/
inductive Run (s : Shared κ φ) : List (Event κ φ) → Shared κ φ → Prop where
  | nil : Run s [] s
  | snoc {events mid e t} (run : Run s events mid) (step : Step mid e t) :
      Run s (events ++ [e]) t

theorem Run.append {s mid t : Shared κ φ} {before after : List (Event κ φ)}
    (first : Run s before mid) (rest : Run mid after t) : Run s (before ++ after) t := by
  induction rest with
  | nil =>
      rw [List.append_nil]
      exact first
  | snoc _ step ih =>
      rw [← List.append_assoc]
      exact .snoc ih step

theorem Run.cons {s mid t : Shared κ φ} {e : Event κ φ} {events : List (Event κ φ)}
    (step : Step s e mid) (rest : Run mid events t) : Run s (e :: events) t :=
  Run.append (.snoc .nil step) rest

/-- A run of a list in two parts is two runs. -/
theorem Run.split {s t : Shared κ φ} {before after : List (Event κ φ)}
    (run : Run s (before ++ after) t) : ∃ mid, Run s before mid ∧ Run mid after t := by
  generalize whole : before ++ after = events at run
  induction run generalizing after with
  | nil =>
      obtain ⟨rfl, rfl⟩ := List.append_eq_nil_iff.mp whole
      exact ⟨s, .nil, .nil⟩
  | snoc run step ih =>
      rcases List.eq_nil_or_concat after with rfl | ⟨front, last, rfl⟩
      · rw [List.append_nil] at whole
        exact ⟨_, whole ▸ .snoc run step, .nil⟩
      · rw [List.concat_eq_append, ← List.append_assoc] at whole
        obtain ⟨same, eq⟩ := List.append_inj' whole rfl
        obtain ⟨mid, first, rest⟩ := ih same
        rw [List.concat_eq_append, List.singleton_inj.mp eq]
        exact ⟨mid, first, .snoc rest step⟩

theorem Run.eq_of_nil {s t : Shared κ φ} {events : List (Event κ φ)} (run : Run s events t)
    (none : events = []) : s = t := by
  cases run with
  | nil => rfl
  | snoc => exact absurd none (by simp)

/-- A run that begins with an event begins with a step. -/
theorem Run.cons_inv {s t : Shared κ φ} {e : Event κ φ} {events : List (Event κ φ)}
    (run : Run s (e :: events) t) : ∃ mid, Step s e mid ∧ Run mid events t := by
  obtain ⟨mid, first, rest⟩ := Run.split (List.singleton_append (x := e) ▸ run)
  generalize one : [e] = single at first
  cases first with
  | nil => cases one
  | snoc before step =>
      rw [← List.nil_append [e]] at one
      obtain ⟨empty, eq⟩ := List.append_inj' one rfl
      rw [← List.singleton_inj.mp eq, ← before.eq_of_nil empty.symm] at step
      exact ⟨mid, step, rest⟩

end Steps

/-! ## States that calls lead to -/

/-- Whom an answer can be given to, and with what in the slot. -/
def Answer.Suits (r : Request φ) (slot : Option LoadOutcome) : Answer → Prop
  | outcome o => slot = some o
  | empty => r = .get
  | cancelled => ∃ flag, r = .tryLoad flag

@[grind =]
def Phase.isInside : Phase φ → Bool
  | inside _ => true
  | _ => false

/-- One caller at most is inside, the slot is empty while it is, and every answer suits. -/
structure Shared.Sound (s : Shared κ φ) : Prop where
  empty : ∀ c stage, s.inside = some (c, stage) → s.cache.slot = none
  insider : ∀ c, (s.phase c).isInside ↔ s.inside.map Prod.fst = some c
  loads : ∀ c, s.phase c ≠ .inside .get
  told : ∀ c r a, s.phase c = .answering r a → a.Suits r s.cache.slot

theorem Request.eq_tryLoad_of_isCancelled {flags : φ → Bool} {r : Request φ}
    (set : r.isCancelled flags = true) : ∃ flag, r = .tryLoad flag := by
  cases r with
  | tryLoad flag => exact ⟨flag, rfl⟩
  | load => cases set
  | get => cases set

theorem suits_found (slot : Option LoadOutcome) : (found slot).Suits (.get : Request φ) slot := by
  cases slot <;> rfl

/-- What could be told with an empty slot can be told for good. -/
theorem Answer.Suits.of_none {r : Request φ} {a : Answer} (suits : a.Suits r none)
    (slot : Option LoadOutcome) : a.Suits r slot := by
  cases a with
  | outcome o => cases suits
  | empty => exact suits
  | cancelled => exact suits

namespace Shared.Sound

variable {s : Shared κ φ} {c : κ}

theorem fresh (document : Document) (flags : φ → Bool) :
    (Shared.fresh document flags : Shared κ φ).Sound where
  empty _ _ inside := by cases inside
  insider _ := by simp [Shared.fresh, Phase.isInside]
  loads _ := nofun
  told _ _ _ phase := by cases phase

/-- The slot is free once it is filled. -/
theorem free (sound : s.Sound) {o : LoadOutcome} (filled : s.cache.slot = some o) :
    s.inside = none := by
  cases inside : s.inside with
  | none => rfl
  | some holder =>
      rw [sound.empty holder.1 holder.2 inside] at filled
      cases filled

/-- The caller that is inside comes further. -/
theorem advance (sound : s.Sound) {stage : Stage} (inside : s.inside = some (c, stage))
    (next : Stage) (count : Nat) :
    ({ s with cache := { s.cache with loads := count }, inside := some (c, next) } :
      Shared κ φ).Sound := by
  obtain ⟨empty, insider, loads, told⟩ := sound
  constructor <;> grind

variable [DecidableEq κ]

/-- A caller that is not inside goes on, and does not come inside. -/
theorem move (sound : s.Sound) {phase : Phase φ} (before : (s.phase c).isInside = false)
    (after : phase.isInside = false)
    (suits : ∀ r a, phase = .answering r a → a.Suits r s.cache.slot) : (s.move c phase).Sound := by
  obtain ⟨empty, insider, loads, told⟩ := sound
  constructor <;> grind

theorem enter (sound : s.Sound) {r : Request φ} (loads : r ≠ .get) (empty : s.cache.slot = none)
    (free : s.inside = none) :
    ({ s.move c (.inside r) with inside := some (c, .attempting) } : Shared κ φ).Sound := by
  obtain ⟨_, insider, others, told⟩ := sound
  constructor <;> grind

/-- The caller that is inside leaves with its answer. -/
theorem leave (sound : s.Sound) {stage : Stage} (inside : s.inside = some (c, stage))
    {r : Request φ} {a : Answer} {slot : Option LoadOutcome} (suits : a.Suits r slot) :
    ({ s.move c (.answering r a) with
      cache := { s.cache with slot }, inside := none } : Shared κ φ).Sound := by
  have others : ∀ d r a, s.phase d = .answering r a → a.Suits r slot := fun d r a phase =>
    (sound.empty c stage inside ▸ sound.told d r a phase).of_none slot
  obtain ⟨empty, insider, loads, told⟩ := sound
  constructor <;> grind

end Shared.Sound

section Steps

variable [DecidableEq κ] [DecidableEq φ] {s t : Shared κ φ} {e : Event κ φ}

theorem Step.sound (step : Step s e t) (sound : s.Sound) : t.Sound := by
  cases step with
  | call phase =>
      refine sound.move (by rw [phase]; rfl) rfl ?_
      rintro r a ⟨⟩
  | cancel flag => exact ⟨sound.empty, sound.insider, sound.loads, sound.told⟩
  | look phase =>
      refine sound.move (by rw [phase]; rfl) rfl ?_
      rintro r a ⟨⟩
      exact suits_found _
  | hit phase loads filled =>
      refine sound.move (by rw [phase]; rfl) rfl ?_
      rintro r a ⟨⟩
      exact filled
  | enter phase loads empty free => exact sound.enter loads empty free
  | refuse inside phase set =>
      have suits : Answer.cancelled.Suits _ s.cache.slot := Request.eq_tryLoad_of_isCancelled set
      exact sound.leave inside suits
  | allow inside phase unset => exact sound.advance inside _ _
  | count inside => exact sound.advance inside _ _
  | invoke inside => exact sound.advance inside _ _
  | «return» o inside => exact sound.advance inside _ _
  | @publish c r o inside phase =>
      have suits : (Answer.outcome o).Suits r (some o) := rfl
      exact sound.leave inside suits
  | answer phase =>
      refine sound.move (by rw [phase]; rfl) rfl ?_
      rintro r a ⟨⟩

/-- What is in the slot stays there. -/
theorem Step.slot_eq (step : Step s e t) (sound : s.Sound) {o : LoadOutcome}
    (filled : s.cache.slot = some o) : t.cache.slot = some o := by
  cases step with
  | publish inside phase =>
      rw [sound.free filled] at inside
      cases inside
  | _ => exact filled

theorem Step.document_eq (step : Step s e t) : t.cache.document = s.cache.document := by
  cases step <;> rfl

theorem Run.sound {events : List (Event κ φ)} (run : Run s events t) (sound : s.Sound) :
    t.Sound := by
  induction run with
  | nil => exact sound
  | snoc _ step ih => exact step.sound ih

theorem Run.slot_eq {events : List (Event κ φ)} (run : Run s events t) (sound : s.Sound)
    {o : LoadOutcome} (filled : s.cache.slot = some o) : t.cache.slot = some o := by
  induction run with
  | nil => exact filled
  | snoc run step ih => exact step.slot_eq (run.sound sound) ih

theorem Run.document_eq {events : List (Event κ φ)} (run : Run s events t) :
    t.cache.document = s.cache.document := by
  induction run with
  | nil => rfl
  | snoc _ step ih => rw [step.document_eq, ih]

end Steps

end SourceLint.Cache
