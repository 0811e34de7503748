import Mathlib.Data.List.Nodup
import Mathlib.Data.List.Perm.Subperm
import SourceLint.Proofs.Bank.Sharing
import SourceLint.Proofs.Glob.Plain
import SourceLint.Proofs.Rule.Unused

/-! # What is reported of a bank

The function rule takes a snapshot of each container and says what it says of these alone, so the
bank stays as it is. Two of the containers are sets and give their entries in any order. What is
said is nevertheless one violation for each function that nothing uses, by place; and where no place
has two functions it does not depend on any order. More uses and more excludes only ever take
violations out, and more definitions only add some.
-/

namespace SourceLint

namespace UnusedFunction

open Bank (Container)

/-! ## Asking the bank -/

/-- The name is used by one of the mentions, or one of the excludes matches it. -/
def isSpared (config : Config) (uses : List Mention) (name : String) : Bool :=
  uses.any (·.name = name) || Glob.matchesAny config.functionExcludes name

/-- The uses that a bank holds. -/
def usesIn (bank : Bank) : List Mention :=
  bank.contents .invocations ++ bank.contents .references

/-- What is said of these definitions when these are all uses. -/
def reportAmong (config : Config) (symbols uses : List Mention) : List Violation :=
  let left := symbols.filter fun m => !isSpared config uses m.name
  (left.mergeSort fun a b => a.location.le b.location).map violation

/-- A snapshot of a container. -/
def ask (container : Container) : StateM Bank (List Mention) := fun bank =>
  match bank.serve (.snapshot container) with
  | (.entries mentions, bank') => (mentions, bank')
  | (_, bank') => ([], bank')

/-- The end of a run, by what the rule asks of the bank. -/
def finishBy (config : Config) : StateM Bank (List Violation) := do
  let invocations ← ask .invocations
  let references ← ask .references
  let symbols ← ask .symbols
  return reportAmong config symbols (invocations ++ references)

/-- What the rule may say of a bank whose containers give what they hold in some order. -/
inductive Reports (config : Config) (bank : Bank) : List Violation → Prop where
  | among {symbols invocations references : List Mention}
      (defined : symbols.Perm (bank.contents .symbols))
      (called : invocations.Perm (bank.contents .invocations))
      (referred : references.Perm (bank.contents .references)) :
      Reports config bank (reportAmong config symbols (invocations ++ references))

variable {config config' : Config} {bank bank' : Bank} {found found' : List Violation}
  {symbols symbols' uses uses' : List Mention} {name : String} {m n : Mention}

theorem isUsed_eq_any (bank : Bank) (name : String) :
    isUsed bank name = (usesIn bank).any (·.name = name) := by
  rw [usesIn, List.any_append, isUsed, ← Array.any_toList]
  rfl

/-- The rule says what it does because of the snapshots alone. -/
theorem finish_eq (run : Run) : rule.finish run =
    reportAmong run.config (run.bank.contents .symbols) (usesIn run.bank) := by
  have spared (m : Mention) : (!isUsed run.bank m.name &&
      !(Glob.compileAll run.config.functionExcludes).any (Glob.matches · m.name)) =
        !isSpared run.config (usesIn run.bank) m.name := by
    rw [isSpared, ← isUsed_eq_any, Bool.not_or]
    rfl
  change (unusedAmong run.config run.bank run.bank.symbols.toList).map violation = _
  simp only [unusedAmong, spared]
  rfl

theorem reports_finish (run : Run) : Reports run.config run.bank (rule.finish run) := by
  rw [finish_eq]
  exact .among .rfl .rfl .rfl

/-! ## One report -/

theorem isSpared_eq_false_iff : isSpared config uses name = false ↔
    (∀ n ∈ uses, n.name ≠ name) ∧ ∀ p ∈ config.functionExcludes, ∀ tokens,
      Glob.compile p = .ok tokens → Glob.matches tokens name = false := by
  have excluded : Glob.matchesAny config.functionExcludes name = false ↔
      ∀ p ∈ config.functionExcludes, ∀ tokens, Glob.compile p = .ok tokens →
        Glob.matches tokens name = false := by
    rw [Bool.eq_false_iff, ne_eq, Glob.matchesAny_iff]
    grind
  simp [isSpared, excluded]

/-- A violation tells which function it is about. -/
theorem violation_injective : Function.Injective violation := by
  intro m n same
  obtain ⟨name, place⟩ := m
  obtain ⟨name', place'⟩ := n
  simp only [violation, Violation.mk.injEq, true_and] at same
  obtain ⟨rfl, message⟩ := same
  have text := congrArg String.toList message
  simp only [String.toList_append, List.append_assoc] at text
  have name := List.append_cancel_right (List.append_cancel_left text)
  rw [String.toList_inj.mp name]

theorem mem_reportAmong {v : Violation} : v ∈ reportAmong config symbols uses ↔
    ∃ m ∈ symbols, isSpared config uses m.name = false ∧ violation m = v := by
  simp [reportAmong, List.mem_map, List.mem_mergeSort, and_assoc]

theorem nodup_reportAmong (once : symbols.Nodup) : (reportAmong config symbols uses).Nodup := by
  refine List.Nodup.map violation_injective ?_
  exact (List.mergeSort_perm _ _).nodup_iff.mpr (once.sublist List.filter_sublist)

theorem pairwise_mergeSort_location (l : List Mention) :
    (l.mergeSort fun a b => a.location.le b.location).Pairwise
      fun a b => a.location.le b.location := by
  have keys : (l.mergeSort fun a b => a.location.le b.location).map Mention.key =
      (l.map Mention.key).mergeSort fun a b => (comparePlaces a b).isLE :=
    List.map_mergeSort fun _ _ _ _ => rfl
  have sorted := pairwise_mergeSort_comparePlaces (l.map Mention.key)
  rw [← keys] at sorted
  exact List.pairwise_map.mp sorted

theorem pairwise_reportAmong : (reportAmong config symbols uses).Pairwise
    fun v w => v.location.le w.location :=
  List.pairwise_map.mpr (pairwise_mergeSort_location _)

theorem isSpared_perm (config : Config) (same : uses.Perm uses') :
    isSpared config uses = isSpared config uses' := by
  funext name
  rw [isSpared, isSpared, same.any_eq]

/-- In whatever order definitions and uses come, the same is said of them in the same order where
no place has two functions. -/
theorem reportAmong_perm (apart : (symbols.map fun m => m.location.key).Nodup)
    (perm : symbols.Perm symbols') (same : uses.Perm uses') :
    reportAmong config symbols uses = reportAmong config symbols' uses' := by
  rw [reportAmong, reportAmong, isSpared_perm config same]
  refine congrArg (List.map violation) (List.Perm.eq_of_pairwise ?_ (pairwise_mergeSort_location _)
    (pairwise_mergeSort_location _)
    ((List.mergeSort_perm _ _).trans ((perm.filter _).trans (List.mergeSort_perm _ _).symm)))
  intro m n first second before after
  have place := Location.compare_eq_iff.mp (Std.OrientedCmp.isLE_antisymm before after)
  have here := (List.mem_filter.mp (List.mem_mergeSort.mp first)).1
  have there := perm.mem_iff.mpr (List.mem_filter.mp (List.mem_mergeSort.mp second)).1
  exact List.inj_on_of_nodup_map apart here there place

/-- Where all that is defined and not spared is so on another occasion as well, nothing that is said
gets lost. -/
theorem reportAmong_subperm (once : symbols.Nodup)
    (stays : ∀ m ∈ symbols, isSpared config uses m.name = false →
      m ∈ symbols' ∧ isSpared config' uses' m.name = false) :
    (reportAmong config symbols uses).Subperm (reportAmong config' symbols' uses') := by
  refine (nodup_reportAmong once).subperm fun v member => ?_
  obtain ⟨m, defined, left, rfl⟩ := mem_reportAmong.mp member
  obtain ⟨defined', left'⟩ := stays m defined left
  exact mem_reportAmong.mpr ⟨m, defined', left', rfl⟩

/-! ## What has been put into a bank -/

theorem nodup_contents_symbols (bank : Bank) : (bank.contents .symbols).Nodup :=
  List.Nodup.of_map _ (Bank.nodup_keys_toList bank.symbols)

/-- The bank after these batches, from the first on. -/
def filled (batches : List Batch) : Bank :=
  batches.foldl Bank.post {}

theorem get?_symbols_foldl_post (bank : Bank) (batches : List Batch) (m : Mention) :
    (batches.foldl Bank.post bank).symbols.get? m =
      (bank.symbols.get? m).or ((batches.flatMap Batch.defined).find? (·.key = m.key)) := by
  induction batches generalizing bank with
  | nil => simp
  | cons batch rest ih =>
      rw [List.foldl_cons, ih, List.flatMap_cons, List.find?_append]
      cases batch with
      | symbols mentions =>
          rw [Bank.post, Bank.addSymbols, Bank.get?_foldl_insert, Option.or_assoc]
          rfl
      | invocations mentions => rfl
      | references mentions => rfl

/-- The definitions in a bank are those put in, of several that compare equal the first. -/
theorem isSetOf_filled (batches : List Batch) :
    Bank.IsSetOf ((filled batches).contents .symbols) (batches.flatMap Batch.defined) := by
  refine Bank.isSetOf_toList fun m => ?_
  rw [filled, get?_symbols_foldl_post, Std.TreeSet.get?_emptyc, Option.none_or]

/-- The names that a bank has in use are those of all uses put in. -/
theorem isSpared_filled (config : Config) (batches : List Batch) :
    isSpared config (usesIn (filled batches)) = isSpared config (batches.flatMap Batch.used) := by
  funext name
  have used : isUsed (filled batches) name =
      (batches.flatMap Batch.used).any (·.name = name) := by
    rw [Bool.eq_iff_iff, filled, (Bank.holds_foldl_post batches).used_iff]
    simp only [List.any_flatMap, List.any_eq_true, decide_eq_true_eq]
  rw [isSpared, isSpared, ← isUsed_eq_any, used]

section Filled

variable {batches : List Batch}

/-- Only the order of the definitions can show in a report. -/
theorem Reports.exists_symbols (reports : Reports config (filled batches) found) :
    ∃ symbols : List Mention, symbols.Perm ((filled batches).contents .symbols) ∧
      found = reportAmong config symbols (batches.flatMap Batch.used) := by
  obtain ⟨defined, called, referred⟩ := reports
  refine ⟨_, defined, ?_⟩
  have spared : isSpared config _ = isSpared config (usesIn (filled batches)) :=
    isSpared_perm config (called.append referred)
  rw [reportAmong, spared, isSpared_filled, reportAmong]

/-- There is one violation for each function put in that nothing uses and no exclude matches. -/
theorem Reports.exists_unused (reports : Reports config (filled batches) found) :
    ∃ unused : List Mention, found = unused.map violation ∧ (unused.map Mention.key).Nodup ∧
      ∀ m, m ∈ unused ↔ (batches.flatMap Batch.defined).find? (·.key = m.key) = some m ∧
        isSpared config (batches.flatMap Batch.used) m.name = false := by
  obtain ⟨symbols, order, rfl⟩ := reports.exists_symbols
  obtain ⟨distinct, mem_iff⟩ := isSetOf_filled batches
  refine ⟨_, rfl, ?_, fun m => ?_⟩
  · refine ((List.mergeSort_perm _ _).map _).nodup_iff.mpr ?_
    exact ((order.map _).nodup_iff.mpr distinct).sublist (List.filter_sublist.map _)
  · rw [List.mem_mergeSort, List.mem_filter, order.mem_iff, mem_iff, Bool.not_eq_true']

/-- Where no place has two functions, the orders do not show. -/
theorem Reports.unique
    (apart : ∀ m ∈ batches.flatMap Batch.defined, ∀ n ∈ batches.flatMap Batch.defined,
      m.location.key = n.location.key → m.key = n.key)
    (reports : Reports config (filled batches) found)
    (reports' : Reports config (filled batches) found') : found = found' := by
  obtain ⟨symbols, order, rfl⟩ := reports.exists_symbols
  obtain ⟨symbols', order', rfl⟩ := reports'.exists_symbols
  obtain ⟨distinct, mem_iff⟩ := isSetOf_filled batches
  refine reportAmong_perm ?_ (order.trans order'.symm) .rfl
  have put : ∀ m ∈ symbols, m ∈ batches.flatMap Batch.defined := fun m member =>
    List.mem_of_find?_eq_some ((mem_iff m).mp (order.mem_iff.mp member))
  have keys := List.pairwise_map.mp ((order.map _).nodup_iff.mpr distinct)
  refine List.pairwise_map.mpr (keys.imp_of_mem fun first second differ same => differ ?_)
  exact apart _ (put _ first) _ (put _ second) same

/-- More uses and more excludes only take violations out. -/
theorem Reports.subperm_of_uses {more : List Batch}
    (excludes : config.functionExcludes ⊆ config'.functionExcludes)
    (nothing : ∀ batch ∈ more, batch.defined = [])
    (reports : Reports config (filled batches) found)
    (reports' : Reports config' (filled (batches ++ more)) found') : found'.Subperm found := by
  obtain ⟨symbols, order, rfl⟩ := reports.exists_symbols
  obtain ⟨symbols', order', rfl⟩ := reports'.exists_symbols
  have same : (batches ++ more).flatMap Batch.defined = batches.flatMap Batch.defined := by
    rw [List.flatMap_append, List.flatMap_eq_nil_iff.mpr nothing, List.append_nil]
  refine reportAmong_subperm (order'.nodup_iff.mpr (nodup_contents_symbols _)) ?_
  intro m member unused
  rw [isSpared_eq_false_iff, List.flatMap_append] at unused
  rw [order'.mem_iff, (isSetOf_filled _).mem_iff, same, ← (isSetOf_filled _).mem_iff] at member
  refine ⟨order.mem_iff.mpr member, isSpared_eq_false_iff.mpr ⟨fun n used => ?_, fun p given => ?_⟩⟩
  · exact unused.1 n (List.mem_append_left _ used)
  · exact unused.2 p (excludes given)

/-- More definitions take none out. -/
theorem Reports.subperm_of_definitions {more : List Mention}
    (reports : Reports config (filled batches) found)
    (reports' : Reports config (filled (batches ++ [.symbols more])) found') :
    found.Subperm found' := by
  obtain ⟨symbols, order, rfl⟩ := reports.exists_symbols
  obtain ⟨symbols', order', rfl⟩ := reports'.exists_symbols
  have before := isSetOf_filled batches
  have after := isSetOf_filled (batches ++ [.symbols more])
  rw [List.flatMap_append] at after ⊢
  refine reportAmong_subperm (order.nodup_iff.mpr (nodup_contents_symbols _)) ?_
  intro m member unused
  refine ⟨order'.mem_iff.mpr (before.subset after (order.mem_iff.mp member)), ?_⟩
  rwa [List.flatMap_singleton, Batch.used, List.append_nil]

end Filled

/-! ## The law -/

/-- What is reported of a bank after any batches, at a configuration. -/
structure ReportsExactly (config : Config) (batches : List Batch) : Prop where
  /-- There is one violation for each function put in, of those that compare equal for the first,
  whose name no call and no reference has and no exclude that compiles matches. -/
  each : ∀ found, Reports config (filled batches) found →
    ∃ unused : List Mention, found = unused.map violation ∧ (unused.map Mention.key).Nodup ∧
      ∀ m, m ∈ unused ↔ (batches.flatMap Batch.defined).find? (·.key = m.key) = some m ∧
        (∀ n ∈ batches.flatMap Batch.used, n.name ≠ m.name) ∧
        ∀ p ∈ config.functionExcludes, ∀ tokens, Glob.compile p = .ok tokens →
          Glob.matches tokens m.name = false
  /-- Each stands where the function does and names it. -/
  named : ∀ m, (violation m).location = m.location ∧
    (violation m).message = "function `" ++ m.name ++ "` is never used"
  sorted : ∀ found, Reports config (filled batches) found →
    found.Pairwise fun v w => v.location.le w.location
  /-- Where different functions have different places, the order of what the containers give does
  not show. -/
  unordered : (∀ m ∈ batches.flatMap Batch.defined, ∀ n ∈ batches.flatMap Batch.defined,
      m.location.key = n.location.key → m.key = n.key) →
    ∀ found found', Reports config (filled batches) found →
      Reports config (filled batches) found' → found = found'
  /-- Calls, references and excludes add no violation. -/
  antitone : ∀ config' more found found', config.functionExcludes ⊆ config'.functionExcludes →
    (∀ batch ∈ more, batch.defined = []) → Reports config (filled batches) found →
      Reports config' (filled (batches ++ more)) found' → found'.Subperm found
  /-- Definitions take no violation out and change none. -/
  monotone : ∀ more found found', Reports config (filled batches) found →
    Reports config (filled (batches ++ [.symbols more])) found' → found.Subperm found'
  /-- The rule says one of these things, by what it asks of the bank, and leaves the bank as it
  is. -/
  asks : ∀ loads, Reports config (filled batches) (rule.finish ⟨config, filled batches, loads⟩) ∧
    (finishBy config).run (filled batches) =
      (rule.finish ⟨config, filled batches, loads⟩, filled batches)
  /-- Asked twice, it says the same. -/
  again : ∀ loads, ((finishBy config >>= fun _ => finishBy config).run (filled batches)).1 =
    rule.finish ⟨config, filled batches, loads⟩

theorem finishBy_run (run : Run) :
    (finishBy run.config).run run.bank = (rule.finish run, run.bank) := by
  rw [finish_eq]
  rfl

theorem finish_reportsExactly (config : Config) (batches : List Batch) :
    ReportsExactly config batches where
  each found reports := by
    obtain ⟨unused, told, once, mem_iff⟩ := reports.exists_unused
    refine ⟨unused, told, once, fun m => ?_⟩
    rw [mem_iff, isSpared_eq_false_iff]
  named _ := ⟨rfl, rfl⟩
  sorted found reports := by
    obtain ⟨_, _, rfl⟩ := reports.exists_symbols
    exact pairwise_reportAmong
  unordered apart _ _ reports reports' := reports.unique apart reports'
  antitone _ _ _ _ excludes nothing reports reports' :=
    reports.subperm_of_uses excludes nothing reports'
  monotone _ _ _ reports reports' := reports.subperm_of_definitions reports'
  asks loads := ⟨reports_finish ⟨config, _, loads⟩, finishBy_run ⟨config, _, loads⟩⟩
  again loads := by
    have first := finishBy_run ⟨config, filled batches, loads⟩
    rw [StateT.run_bind, first]
    exact congrArg Prod.fst first

/-- Two files define functions, one of them twice over with the file spelled in another way, and a
call uses one of the names. -/
def sharedNames : List Batch :=
  [.symbols [⟨"f", ⟨⟨"b.rs"⟩, 1, 4⟩⟩, ⟨"g", ⟨⟨"b.rs"⟩, 2, 4⟩⟩],
    .symbols [⟨"h", ⟨⟨"a/c.rs"⟩, 9, 4⟩⟩, ⟨"f", ⟨⟨"a.rs"⟩, 1, 4⟩⟩, ⟨"h", ⟨⟨"a//c.rs"⟩, 9, 4⟩⟩],
    .invocations [⟨"f", ⟨⟨"b.rs"⟩, 3, 9⟩⟩]]

/-- The two functions that nothing calls are reported by place, each once. -/
theorem finish_sharedNames : ReportsExactly {} sharedNames ∧
    rule.finish ⟨{}, filled sharedNames, 1⟩ =
      [violation ⟨"h", ⟨⟨"a/c.rs"⟩, 9, 4⟩⟩, violation ⟨"g", ⟨⟨"b.rs"⟩, 2, 4⟩⟩] := by
  refine ⟨finish_reportsExactly {} sharedNames, ?_⟩
  have symbols : (filled sharedNames).contents .symbols = [⟨"f", ⟨⟨"a.rs"⟩, 1, 4⟩⟩,
      ⟨"f", ⟨⟨"b.rs"⟩, 1, 4⟩⟩, ⟨"g", ⟨⟨"b.rs"⟩, 2, 4⟩⟩, ⟨"h", ⟨⟨"a/c.rs"⟩, 9, 4⟩⟩] := by
    decide +kernel
  have byPlace : reportAmong {} ((filled sharedNames).contents .symbols)
      (usesIn (filled sharedNames)) = reportAmong {} [⟨"f", ⟨⟨"a.rs"⟩, 1, 4⟩⟩,
        ⟨"h", ⟨⟨"a/c.rs"⟩, 9, 4⟩⟩, ⟨"f", ⟨⟨"b.rs"⟩, 1, 4⟩⟩, ⟨"g", ⟨⟨"b.rs"⟩, 2, 4⟩⟩]
          (usesIn (filled sharedNames)) := by
    rw [symbols]
    exact reportAmong_perm (by decide +kernel) (by decide +kernel) .rfl
  rw [finish_eq, byPlace, reportAmong, List.mergeSort_of_pairwise (by decide +kernel)]
  decide +kernel

end UnusedFunction

end SourceLint
