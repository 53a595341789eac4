/-
Commands that work in place.

A command that copies or deserializes makes storage as it goes along, and what it has made
stays in the heap even if it fails.  Beside each such command stands the one that makes its
storage at the end; every other command checks all that it needs before it changes
anything.

* `Command.runInPlace` — what a command does in place;
* `Matches` — actions that do the same in heaps that differ in the names of storage, and of
  which the second, if it fails, leaves all older storage as it was;
* `Command.run_matches` — **every command in place matches the command itself.**

Design notes: `Matches` comes in two strengths.  An action that only makes storage keeps
all that the heap held, so another action may fail after it; an action that changes storage
comes last.
-/
import StackItems.Proofs.InPlace
import StackItems.Proofs.RenamedScripts
import StackItems.Session

namespace StackItems

open StackItems.Action

/-! ### Commands in place -/

namespace Heap

/-- An item for a place that must not share a struct, made in place. -/
def copyValue (h : Heap) (limits : Limits) : Item → Report Item × Heap
  | .seq ⟨.struct, slot⟩ => h.copy limits ⟨.struct, slot⟩
  | x => (.quiet (.ok x), h)

end Heap

/-- Takes over an operation in place; the heap that it leaves stays, even if it failed. -/
def Action.leaving (done : Report Item × Heap) : Action Item := do
  setHeap done.2
  ofReport done.1

/-- Runs an operation on a sequence in place. -/
def SeqAction.runInPlace (regs : Registers) (limits : Limits) (r : SeqRef) :
    SeqAction → Action Outcome
  | clone => do
    let r ← lift ((Item.seq r).toSeq .struct)
    giving (← leaving ((← heap).copy .default r))
  | cloneWithin => do
    let r ← lift ((Item.seq r).toSeq .struct)
    giving (← leaving ((← heap).copy limits r))
  | action => action.run regs limits r

/-- Runs a command in place. -/
def Command.runInPlace (regs : Registers) (limits : Limits) : Command → Action Outcome
  | deserialize data => do giving (← leaving ((← heap).load limits data))
  | roundTrip x => do
    let x ← eval regs x
    let data ← ofReport ((← heap).serialize limits x)
    giving (← leaving ((← heap).load limits data))
  | cloneValue x => do
    let x ← eval regs x
    giving (← leaving ((← heap).copyValue limits x))
  | onSeq kind x action => do
    let x ← eval regs x
    let r ← lift (x.toSeq kind)
    return { ← action.runInPlace regs limits r with subject := some x }
  | command => command.run regs limits

/-! ### What is made in place in renamed heaps -/

namespace Heap

/-- An operation that makes its storage at the end, and one in place in another heap: both
fail with the same fault, and the second heap still holds all that it held, or the same is
made in both. -/
inductive InPlaceAlike (R : Item → Item → Prop) (g : Heap) :
    Report (Item × Heap) → Report Item × Heap → Prop where
  | failed {fault : Fault} {log : Array LogRecord} {g' : Heap} (grown : g.Extends g') :
      InPlaceAlike R g ⟨.error fault, log⟩ (⟨.error fault, log⟩, g')
  | done {x y : Item} {h' g' : Heap} {log : Array LogRecord}
      (alike : MadeAlike R g (fun R' => R') (x, h') (y, g')) :
      InPlaceAlike R g ⟨.ok (x, h'), log⟩ (⟨.ok y, log⟩, g')

section

variable {h g : Heap} {R : Item → Item → Prop} {x y : Item}

/-- All that a renaming relates leads to nothing else. -/
theorem Renaming.closedOn (ρ : Renaming h g R) : h.ClosedOn fun x => ∃ y, R x y where
  holds := by
    rintro x ⟨y, hxy⟩
    exact (ρ.holds hxy).1
  contents := by
    rintro x ⟨y, hxy⟩ a ha
    obtain ⟨i, hi⟩ := List.getElem?_of_mem ha
    obtain ⟨b, hb⟩ := exists_getElem? (length_contents_eq (ρ.node_eq hxy)).symm hi
    exact ⟨b, ρ.contents hxy i a b hi hb⟩

theorem Renaming.load_alike (ρ : Renaming h g R) (limits : Limits) (input : List UInt8) :
    InPlaceAlike R g (h.deserialize limits input) (g.load limits input) := by
  have inPlace := inPlace_load g limits input
  generalize g.load limits input = loaded at inPlace ⊢
  rw [deserialize_eq] at inPlace ⊢
  cases hread : Tree.decode limits input with
  | error halt =>
    rw [hread] at inPlace
    cases inPlace with
    | failed grown => exact .failed grown
  | ok t =>
    have made := ρ.build t
    rw [hread] at inPlace
    replace inPlace : InPlace g (.quiet (.ok (t.build g))) loaded := inPlace
    show InPlaceAlike R g (.quiet (.ok (t.build h))) loaded
    generalize t.build g = built at inPlace made
    cases inPlace with
    | done grown => exact .done made

theorem Renaming.copy_alike (ρ : Renaming h g R) (limits : Limits) {r s : SeqRef}
    (hrs : R (.seq r) (.seq s)) :
    InPlaceAlike R g (h.cloneStruct limits r) (g.copy limits s) := by
  have inPlace := ρ.closedOn.inPlace_copy limits ⟨_, hrs⟩
  have alike := copyAt_alike limits.maxStructDepth.toNat 0 limits.maxCloneLength.toNat ρ hrs
  have grown := extends_copyAt limits.maxStructDepth.toNat 0 s limits.maxCloneLength.toNat g
  rw [copy] at inPlace ⊢
  generalize copyAt limits.maxStructDepth.toNat 0 r limits.maxCloneLength.toNat h = copied,
    copyAt limits.maxStructDepth.toNat 0 s limits.maxCloneLength.toNat g = copied',
    h.cloneStruct limits r = report at alike inPlace grown ⊢
  cases alike with
  | stopped cause h' g' =>
    cases inPlace with
    | failed _ => exact .failed grown
  | @made a b h' g' alike =>
    obtain ⟨x, left⟩ := a
    obtain ⟨y, left'⟩ := b
    obtain ⟨R', more, ρ', grown, hxy, -⟩ := alike
    cases inPlace with
    | done _ => exact .done ⟨R', more, ρ', grown, hxy⟩

theorem Renaming.copyValue_alike (ρ : Renaming h g R) (limits : Limits) (hxy : R x y) :
    InPlaceAlike R g (h.cloneValue limits x) (g.copyValue limits y) := by
  have kind := ρ.kind_eq hxy
  by_cases hx : x.kind.isStruct = true
  · obtain ⟨slot, rfl⟩ := seq_of_isStruct hx
    obtain ⟨slot', rfl⟩ := seq_of_isStruct (kind ▸ hx)
    exact ρ.copy_alike limits hxy
  · have shared : InPlaceAlike R g (.quiet (.ok (x, h))) (.quiet (.ok y), g) :=
      .done (ρ.unchanged (S := fun R' => R') hxy)
    rcases ρ.cases hxy with ⟨p, rfl, rfl⟩ | ⟨r, s, rfl, rfl⟩ | ⟨⟨rkind, slot⟩, ⟨skind, slot'⟩, rfl,
      rfl, hkind⟩ | ⟨r, s, rfl, rfl⟩
    · exact shared
    · exact shared
    · obtain rfl : rkind = skind := hkind
      cases rkind with
      | array => exact shared
      | struct => exact absurd rfl hx
    · exact shared

end

end Heap

/-! ### Matching actions -/

section

open StackItems.Heap

variable {α β γ δ : Type}

/-- What two actions have done in heaps that a renaming relates.  Either both have failed for
the same reason, and the second heap still holds all that it held; or both have succeeded,
and the renaming has grown to one that relates their results. -/
inductive Matched (R : Item → Item → Prop) (g₀ : Heap) (keeps : Bool)
    (S : (Item → Item → Prop) → α → β → Prop) :
    Except Failure α × Bench → Except Failure β × Bench → Prop where
  | failed (failure : Failure) {h g : Heap} {log : Array LogRecord} (grown : g₀.Extends g) :
      Matched R g₀ keeps S (.error failure, ⟨h, log⟩) (.error failure, ⟨g, log⟩)
  | done {a : α} {b : β} {h g : Heap} {log : Array LogRecord} {R' : Item → Item → Prop}
      (more : Subrelation R R') (ρ : Renaming h g R') (grown : keeps = true → g₀.Extends g)
      (related : S R' a b) : Matched R g₀ keeps S (.ok a, ⟨h, log⟩) (.ok b, ⟨g, log⟩)

/-- Actions that do the same in heaps that a renaming relates.  If they are said to keep the
heap, the second heap holds all that it held also after a success. -/
def Matches (keeps : Bool) (S : (Item → Item → Prop) → α → β → Prop) (R : Item → Item → Prop)
    (act : Action α) (act' : Action β) : Prop :=
  ∀ (h g : Heap) (log : Array LogRecord), Renaming h g R →
    Matched R g keeps S (act.run ⟨h, log⟩) (act'.run ⟨g, log⟩)

variable {keeps : Bool} {R : Item → Item → Prop} {S : (Item → Item → Prop) → α → β → Prop}
  {T : (Item → Item → Prop) → γ → δ → Prop} {act : Action α} {act' : Action β}
  {next : α → Action γ} {next' : β → Action δ} {a : α} {b : β} {x y : Item}

theorem action_bind_run {bench : Bench} :
    (act >>= next).run bench = match act.run bench with
      | (.error failure, bench) => (.error failure, bench)
      | (.ok a, bench) => (next a).run bench := by
  show (match act.run bench with | (a, bench) => ExceptT.bindCont next a bench) = _
  rcases act.run bench with ⟨failure | a, bench⟩
  · rfl
  · rfl

/-- One action after another: what comes first keeps the heap. -/
theorem Matches.bind (first : Matches true S R act act')
    (others : ∀ a b R', Subrelation R R' → S R' a b → Matches keeps T R' (next a) (next' b)) :
    Matches keeps T R (act >>= next) (act' >>= next') := by
  intro h g log ρ
  have start := first h g log ρ
  rw [action_bind_run, action_bind_run]
  generalize act.run ⟨h, log⟩ = done, act'.run ⟨g, log⟩ = done' at start
  cases start with
  | failed failure grown => exact .failed failure grown
  | @done a b h g log R' more ρ' grown related =>
    have rest := others a b R' more related h g log ρ'
    show Matched R _ keeps T ((next a).run ⟨h, log⟩) ((next' b).run ⟨g, log⟩)
    generalize (next a).run ⟨h, log⟩ = done, (next' b).run ⟨g, log⟩ = done' at rest
    cases rest with
    | failed failure grown' => exact .failed failure ((grown rfl).trans grown')
    | done more' ρ'' grown' related' =>
      exact .done (fun hab => more' (more hab)) ρ'' (fun keeps => (grown rfl).trans (grown' keeps))
        related'

/-- An action that cannot fail may follow one that changes storage. -/
theorem Matches.bind_pure (first : Matches keeps S R act act') {f : α → γ} {f' : β → δ}
    (others : ∀ a b R', Subrelation R R' → S R' a b → T R' (f a) (f' b)) :
    Matches keeps T R (do return f (← act)) (do return f' (← act')) := by
  intro h g log ρ
  have start := first h g log ρ
  rw [action_bind_run, action_bind_run]
  generalize act.run ⟨h, log⟩ = done, act'.run ⟨g, log⟩ = done' at start
  cases start with
  | failed failure grown => exact .failed failure grown
  | @done a b h g log R' more ρ' grown related =>
    exact .done more ρ' grown (others a b R' more related)

theorem matches_pure (related : S R a b) : Matches keeps S R (pure a) (pure b) := by
  intro h g log ρ
  exact .done (fun hab => hab) ρ (fun _ => .refl g) related

/-- What follows the heap may use that the heaps are related. -/
theorem matches_heap {next : Heap → Action γ} {next' : Heap → Action δ}
    (others : ∀ h g, Renaming h g R → Matches keeps T R (next h) (next' g)) :
    Matches keeps T R (heap >>= next) (heap >>= next') :=
  fun h g log ρ => others h g ρ h g log ρ

/-- The same, from the heap that there is. -/
theorem matches_heap_now {next : Heap → Action γ} {next' : Heap → Action δ}
    (others : ∀ (h g : Heap) (log : Array LogRecord), Renaming h g R →
      Matched R g keeps T ((next h).run ⟨h, log⟩) ((next' g).run ⟨g, log⟩)) :
    Matches keeps T R (heap >>= next) (heap >>= next') := others

/-- Results that are the same fault, or related. -/
theorem matches_lift {result : Except Fault α} {result' : Except Fault β} {Q : α → β → Prop}
    (alike : ∀ h g, Renaming h g R → Likewise Q result result')
    (others : ∀ a b, Q a b → Matches keeps T R (next a) (next' b)) :
    Matches keeps T R (lift result >>= next) (lift result' >>= next') := by
  intro h g log ρ
  cases alike h g ρ with
  | failed cause => exact .failed _ (.refl g)
  | done related => exact others _ _ related h g log ρ

/-- The same report on both sides. -/
theorem matches_ofReport {next : α → Action γ} {next' : α → Action δ} (report : Report α)
    (others : ∀ a, Matches keeps T R (next a) (next' a)) :
    Matches keeps T R (ofReport report >>= next) (ofReport report >>= next') := by
  obtain ⟨result, records⟩ := report
  cases result with
  | error cause => exact fun h g log ρ => .failed _ (.refl g)
  | ok a => exact fun h g log ρ => others a h g (log ++ records) ρ

theorem eval_run (regs : Registers) (e : Expr) (h : Heap) (log : Array LogRecord) :
    (eval regs e).run ⟨h, log⟩ = match e.eval regs h with
      | .ok (x, h') => (.ok x, ⟨h', log⟩)
      | .error failure => (.error failure, ⟨h, log⟩) := by
  rw [eval, action_bind_run]
  show (match e.eval regs h with
    | .ok (x, h') => do
      setHeap h'
      return x
    | .error failure => throw failure : Action Item).run ⟨h, log⟩ = _
  rcases e.eval regs h with failure | ⟨x, h'⟩
  · rfl
  · rfl

theorem matches_eval {regs regs' : Registers} (related : PairedRegisters R regs regs') (e : Expr) :
    Matches keeps (fun R' => R') R (eval regs e) (eval regs' e) := by
  intro h g log ρ
  have made := ρ.eval_alike related e
  rw [eval_run, eval_run]
  generalize e.eval regs h = done, e.eval regs' g = done' at made
  cases made with
  | failed failure => exact .failed failure (.refl g)
  | @done a b alike =>
    obtain ⟨R', more, ρ', grown, hxy⟩ := alike
    exact .done more ρ' (fun _ => grown) hxy

/-! ### Outcomes -/

/-- Outcomes with the same answer, and related items. -/
structure OutcomeAlike (R : Item → Item → Prop) (o o' : Outcome) : Prop where
  answer : o.answer = o'.answer
  item : Option.Rel R o.item o'.item
  subject : Option.Rel R o.subject o'.subject

/-- An answer that is read off the heap. -/
theorem matched_answer {h g : Heap} (ρ : Renaming h g R) (log : Array LogRecord) {a b : Answer}
    (same : a = b) :
    Matched R g keeps OutcomeAlike (.ok { answer := a }, ⟨h, log⟩)
      (.ok { answer := b }, ⟨g, log⟩) :=
  .done (fun hab => hab) ρ (fun _ => .refl g) ⟨same, .none, .none⟩

theorem matches_giving (hxy : R x y) : Matches keeps OutcomeAlike R (giving x) (giving y) := by
  intro h g log ρ
  exact .done (fun hab => hab) ρ (fun _ => .refl g)
    ⟨congrArg Answer.item (ρ.snapshot_eq hxy), .some hxy, .none⟩

theorem matches_givingIfAny {p q : Option Item} (related : Option.Rel R p q) :
    Matches keeps OutcomeAlike R (givingIfAny p) (givingIfAny q) := by
  cases related with
  | some hxy => exact matches_giving hxy
  | none => exact matches_pure ⟨rfl, .none, .none⟩

/-- What is made at the end on one side, and in place on the other. -/
theorem matched_made {report : Report (Item × Heap)} {done : Report Item × Heap} {h g : Heap}
    (alike : InPlaceAlike R g report done) (log : Array LogRecord) :
    Matched R g keeps OutcomeAlike
      ((do giving (← keeping (← ofReport report)) : Action Outcome).run ⟨h, log⟩)
      ((do giving (← leaving done) : Action Outcome).run ⟨g, log⟩) := by
  cases alike with
  | failed grown => exact .failed _ grown
  | @done x y h' g' records alike =>
    obtain ⟨R', more, ρ, grown, hxy⟩ := alike
    exact .done more ρ (fun _ => grown)
      ⟨congrArg Answer.item (ρ.snapshot_eq hxy), .some hxy, .none⟩

/-- A change to storage, with an answer that does not need the heap. -/
theorem matches_put {h g : Heap} (ρ : Renaming h g R) {o o' : Outcome}
    (related : OutcomeAlike R o o') :
    Matches false OutcomeAlike R (do setHeap h; return o) (do setHeap g; return o') :=
  fun _ _ _ _ => .done (fun hab => hab) ρ (fun keeps => absurd keeps (by simp)) related

/-- A change to storage that takes an item out. -/
theorem matches_taken {made made' : Item × Heap} (ρ : Renaming made.2 made'.2 R)
    (hxy : R made.1 made'.1) :
    Matches false OutcomeAlike R (do giving (← keeping made)) (do giving (← keeping made')) :=
  fun _ _ _ _ => .done (fun hab => hab) ρ (fun keeps => absurd keeps (by simp))
    ⟨congrArg Answer.item (ρ.snapshot_eq hxy), .some hxy, .none⟩

/-- A change to storage that takes an item out if there is one. -/
theorem matches_takenIfAny {h g : Heap} (ρ : Renaming h g R) {p q : Option Item}
    (related : Option.Rel R p q) :
    Matches false OutcomeAlike R (do setHeap h; givingIfAny p) (do setHeap g; givingIfAny q) := by
  intro h₀ g₀ log _
  cases related with
  | some hxy =>
    exact .done (fun hab => hab) ρ (fun keeps => absurd keeps (by simp))
      ⟨congrArg Answer.item (ρ.snapshot_eq hxy), .some hxy, .none⟩
  | none =>
    exact .done (fun hab => hab) ρ (fun keeps => absurd keeps (by simp)) ⟨rfl, .none, .none⟩

/-! ### Commands -/

variable {regs regs' : Registers}

/-- An operation on a sequence does the same in place. -/
theorem SeqAction.run_matches (related : PairedRegisters R regs regs') (limits : Limits)
    {r s : SeqRef} (hrs : R (.seq r) (.seq s)) (action : SeqAction) :
    Matches false OutcomeAlike R (action.run regs limits r) (action.runInPlace regs' limits s) := by
  cases action with
  | size =>
    intro h g log ρ
    exact matched_answer ρ log (congrArg Answer.size (ρ.count_eq hrs))
  | clear =>
    apply matches_heap
    intro h g ρ
    exact matches_put (ρ.clear hrs) ⟨rfl, .none, .none⟩
  | sameAs other =>
    apply (matches_eval related other).bind
    intro x y R' more hxy
    have asked : ∀ h g, Renaming h g R' → Likewise (fun r' s' => R' (.seq r') (.seq s'))
        (x.toSeq r.kind) (y.toSeq s.kind) := by
      intro h g ρ
      rw [ρ.seqKind_eq (more hrs)]
      exact ρ.toSeq_likewise hxy s.kind
    apply matches_lift asked
    intro r' s' hrs' h g log ρ
    refine matched_answer ρ log (congrArg Answer.flag ?_)
    rw [beq_eq_decide, beq_eq_decide]
    exact decide_eq_decide.2 (ρ.seq_eq_iff (more hrs) hrs')
  | items =>
    intro h g log ρ
    exact matched_answer ρ log (congrArg Answer.list (ρ.listing_eq (ρ.items hrs)))
  | get index =>
    apply matches_heap
    intro h g ρ
    apply matches_lift fun _ _ _ => ρ.getAt_likewise hrs index
    intro x y hxy
    exact matches_giving hxy
  | pop =>
    apply matches_heap
    intro h g ρ
    apply matches_lift fun _ _ _ => ρ.pop_likewise hrs
    intro made made' hmade
    exact matches_taken hmade.2 hmade.1
  | removeAt index =>
    apply matches_heap
    intro h g ρ
    apply matches_lift fun _ _ _ => ρ.removeExact_likewise hrs index
    intro made made' hmade
    exact matches_taken hmade.2 hmade.1
  | removeByMode index =>
    apply matches_lift fun _ _ ρ => ρ.toSeq_likewise hrs .array
    intro r' s' hrs'
    apply matches_heap
    intro h g ρ
    apply matches_lift fun _ _ _ => ρ.removeAt_likewise hrs' limits.removalMode index
    intro made made' hmade
    exact matches_taken hmade.2 hmade.1
  | set index item =>
    apply (matches_eval related item).bind
    intro x y R' more hxy
    apply matches_heap
    intro h g ρ
    apply matches_lift fun _ _ _ => ρ.setAt_likewise (more hrs) index hxy
    intro h' g' ρ'
    exact matches_put ρ' ⟨rfl, .none, .none⟩
  | add item =>
    apply (matches_eval related item).bind
    intro x y R' more hxy
    apply matches_heap
    intro h g ρ
    exact matches_put (ρ.add (more hrs) hxy) ⟨rfl, .none, .none⟩
  | clone =>
    apply matches_lift fun _ _ ρ => ρ.toSeq_likewise hrs .struct
    intro r' s' hrs'
    exact matches_heap_now fun h g log ρ => matched_made (ρ.copy_alike .default hrs') log
  | cloneWithin =>
    apply matches_lift fun _ _ ρ => ρ.toSeq_likewise hrs .struct
    intro r' s' hrs'
    exact matches_heap_now fun h g log ρ => matched_made (ρ.copy_alike limits hrs') log

/-- An operation on a map does the same. -/
theorem MapAction.run_matches (related : PairedRegisters R regs regs') {r s : MapRef}
    (hrs : R (.map r) (.map s)) (action : MapAction) :
    Matches false OutcomeAlike R (action.run regs r) (action.run regs' s) := by
  cases action with
  | size =>
    intro h g log ρ
    exact matched_answer ρ log (congrArg Answer.size (ρ.count_eq hrs))
  | clear =>
    apply matches_heap
    intro h g ρ
    exact matches_put (ρ.clearMap hrs) ⟨rfl, .none, .none⟩
  | sameAs other =>
    apply (matches_eval related other).bind
    intro x y R' more hxy
    apply matches_lift fun _ _ ρ => ρ.toMap_likewise hxy
    intro r' s' hrs' h g log ρ
    refine matched_answer ρ log (congrArg Answer.flag ?_)
    rw [beq_eq_decide, beq_eq_decide]
    exact decide_eq_decide.2 (ρ.map_eq_iff (more hrs) hrs')
  | entries =>
    intro h g log ρ
    exact matched_answer ρ log (congrArg Answer.entries (ρ.entryListing_eq (ρ.entries hrs)))
  | keys =>
    intro h g log ρ
    refine matched_answer ρ log (congrArg Answer.list (ρ.listing_eq ?_))
    rw [ρ.keys_eq hrs, List.forall₂_map_left_iff, List.forall₂_map_right_iff]
    exact List.forall₂_same.2 fun k _ => ρ.prim k
  | values =>
    intro h g log ρ
    exact matched_answer ρ log (congrArg Answer.list (ρ.listing_eq (ρ.contents_related hrs)))
  | get key =>
    apply (matches_eval related key).bind
    intro x y R' more hxy
    apply matches_lift fun _ _ ρ => ρ.toKey_likewise hxy
    rintro k _ rfl
    apply matches_heap
    intro h g ρ
    exact matches_givingIfAny (ρ.get?_related (more hrs) k)
  | contains key =>
    apply (matches_eval related key).bind
    intro x y R' more hxy
    apply matches_lift fun _ _ ρ => ρ.toKey_likewise hxy
    rintro k _ rfl h g log ρ
    refine matched_answer ρ log (congrArg Answer.flag ?_)
    rw [Bool.eq_iff_iff, Entries.contains_eq_true_iff, Entries.contains_eq_true_iff,
      ρ.keys_eq (more hrs)]
  | insert key item =>
    apply (matches_eval related key).bind
    intro x y R' more hxy
    apply matches_lift fun _ _ ρ => ρ.toKey_likewise hxy
    rintro k _ rfl
    apply (matches_eval (related.mono more) item).bind
    intro x' y' R'' more' hxy'
    apply matches_heap
    intro h g ρ
    obtain ⟨previous, ρ'⟩ := ρ.insertKey (more' (more hrs)) k hxy'
    exact matches_takenIfAny ρ' previous
  | remove key =>
    apply (matches_eval related key).bind
    intro x y R' more hxy
    apply matches_lift fun _ _ ρ => ρ.toKey_likewise hxy
    rintro k _ rfl
    apply matches_heap
    intro h g ρ
    obtain ⟨previous, ρ'⟩ := ρ.removeKey (more hrs) k
    exact matches_takenIfAny ρ' previous

/-- The container that a command worked on joins its outcome. -/
theorem Matches.withSubject {act act' : Action Outcome}
    (first : Matches keeps OutcomeAlike R act act') (hxy : R x y) :
    Matches keeps OutcomeAlike R (do return { ← act with subject := some x })
      (do return { ← act' with subject := some y }) := by
  apply first.bind_pure
  intro o o' R' more alike
  exact ⟨alike.answer, alike.item, .some (more hxy)⟩

/-- Every command does in place what it does, up to the names of storage; and if it fails, all
older storage is as it was. -/
theorem Command.run_matches (related : PairedRegisters R regs regs') (limits : Limits)
    (command : Command) :
    Matches false OutcomeAlike R (command.run regs limits) (command.runInPlace regs' limits) := by
  cases command with
  | give x =>
    apply (matches_eval related x).bind
    intro x y R' more hxy
    exact matches_giving hxy
  | deserialize data =>
    exact matches_heap_now fun h g log ρ => matched_made (ρ.load_alike limits data) log
  | serialize x =>
    apply (matches_eval related x).bind
    intro x y R' more hxy
    apply matches_heap
    intro h g ρ
    rw [ρ.serialize_eq hxy limits]
    apply matches_ofReport
    intro data
    exact matches_pure ⟨rfl, .none, .none⟩
  | roundTrip x =>
    apply (matches_eval related x).bind
    intro x y R' more hxy
    apply matches_heap
    intro h g ρ
    rw [ρ.serialize_eq hxy limits]
    apply matches_ofReport
    intro data
    exact matches_heap_now fun h g log ρ => matched_made (ρ.load_alike limits data) log
  | equals a b =>
    apply (matches_eval related a).bind
    intro x y R' more hxy
    apply (matches_eval (related.mono more) b).bind
    intro x' y' R'' more' hxy'
    apply matches_heap
    intro h g ρ
    rw [ρ.equals_eq (more' hxy) hxy']
    apply matches_ofReport
    intro equal
    exact matches_pure ⟨rfl, .none, .none⟩
  | compare a b =>
    apply (matches_eval related a).bind
    intro x y R' more hxy
    apply (matches_eval (related.mono more) b).bind
    intro x' y' R'' more' hxy'
    apply matches_heap
    intro h g ρ
    rw [ρ.compare_eq limits (more' hxy) hxy']
    apply matches_ofReport
    intro equal
    exact matches_pure ⟨rfl, .none, .none⟩
  | info x =>
    apply (matches_eval related x).bind
    intro x y R' more hxy h g log ρ
    exact matched_answer ρ log (congrArg₂ Answer.info (ρ.kind_eq hxy) (ρ.count_eq hxy))
  | describe x =>
    apply (matches_eval related x).bind
    intro x y R' more hxy h g log ρ
    exact matched_answer ρ log (congrArg Answer.text (ρ.describe_eq hxy))
  | key x =>
    apply (matches_eval related x).bind
    intro x y R' more hxy
    apply matches_lift fun _ _ ρ => ρ.toKey_likewise hxy
    rintro k _ rfl h g log ρ
    exact .done (fun hab => hab) ρ (fun _ => .refl g) ⟨rfl, .some (ρ.prim k), .none⟩
  | integer x =>
    apply (matches_eval related x).bind
    intro x y R' more hxy
    apply matches_lift fun _ _ ρ => .of_eq (ρ.conversions_eq hxy).1
    rintro n _ rfl
    exact matches_pure ⟨rfl, .none, .none⟩
  | boolean x =>
    apply (matches_eval related x).bind
    intro x y R' more hxy
    apply matches_lift fun _ _ ρ => .of_eq (ρ.conversions_eq hxy).2.1
    rintro b _ rfl
    exact matches_pure ⟨rfl, .none, .none⟩
  | bytes x =>
    apply (matches_eval related x).bind
    intro x y R' more hxy
    apply matches_lift fun _ _ ρ => .of_eq (ρ.conversions_eq hxy).2.2.1
    rintro bs _ rfl
    exact matches_pure ⟨rfl, .none, .none⟩
  | interface x =>
    apply (matches_eval related x).bind
    intro x y R' more hxy
    apply matches_lift fun _ _ ρ => ρ.toHost_likewise hxy
    intro r s hrs
    exact matches_giving hrs
  | hostValue x type =>
    apply (matches_eval related x).bind
    intro x y R' more hxy
    apply matches_heap
    intro h g ρ
    apply matches_lift fun _ _ _ => .of_eq (ρ.hostValue_eq hxy type)
    rintro n _ rfl
    exact matches_pure ⟨rfl, .none, .none⟩
  | elements asked x =>
    apply (matches_eval related x).bind
    intro x y R' more hxy
    apply matches_lift fun _ _ ρ => ρ.toAnySeq_likewise hxy asked
    intro r s hrs h g log ρ
    exact matched_answer ρ log (congrArg Answer.list (ρ.listing_eq (ρ.items hrs)))
  | entries x =>
    apply (matches_eval related x).bind
    intro x y R' more hxy
    apply matches_lift fun _ _ ρ => ρ.toMap_likewise hxy
    intro r s hrs h g log ρ
    exact matched_answer ρ log (congrArg Answer.entries (ρ.entryListing_eq (ρ.entries hrs)))
  | cloneValue x =>
    apply (matches_eval related x).bind
    intro x y R' more hxy
    exact matches_heap_now fun h g log ρ => matched_made (ρ.copyValue_alike limits hxy) log
  | clearReferences x =>
    apply (matches_eval related x).bind
    intro x y R' more hxy
    apply matches_heap
    intro h g ρ
    exact matches_put (ρ.clearReferences hxy) ⟨rfl, .none, .some hxy⟩
  | onSeq kind x action =>
    apply (matches_eval related x).bind
    intro x y R' more hxy
    apply matches_lift fun _ _ ρ => ρ.toSeq_likewise hxy kind
    intro r s hrs
    exact (action.run_matches (related.mono more) limits hrs).withSubject hxy
  | onMap x action =>
    apply (matches_eval related x).bind
    intro x y R' more hxy
    apply matches_lift fun _ _ ρ => ρ.toMap_likewise hxy
    intro r s hrs
    exact (action.run_matches (related.mono more) hrs).withSubject hxy

end

end StackItems
