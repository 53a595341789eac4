/-
Failures leave no trace.

A session in place does not go back to where it was when a step fails: whatever the step
has made until then stays in the heap.  Nothing leads to it, so no later step can tell.  A
script gives the same replies as it does without the steps that fail, and leaves the same
behind, up to the names of storage.

* `Session.stepInPlace`, `Session.runInPlace` — steps whose storage stays if they fail;
* `Session.Alike` — sessions that differ in the names of storage, and in storage that no
  register leads to;
* `Session.Alike.step` — one step keeps sessions alike, whether it succeeds or not;
* `Session.failures_leave_no_trace` — **the steps that fail may be left out.**

Design notes: the session that goes back after a failure stands between the two runs in
place.  A failed step leaves it as it is, so it runs along with both of them.
-/
import StackItems.Proofs.InPlaceCommands

namespace StackItems

open StackItems.Heap

/-- Whether the step that a reply is to has succeeded. -/
def Reply.succeeded (reply : Reply) : Bool := reply.answer.isOk

namespace Session

/-! ### Sessions in place -/

/-- The registers after a step that has given an item, or none. -/
def kept (regs : Registers) (keep : Option String) (x : Option Item) : Registers :=
  match keep, x with
  | some name, some x => regs.put name x
  | _, _ => regs

/-- Runs a step in place: what it has made stays, whether or not it succeeds. -/
def stepInPlace (s : Session) (step : Step) : Reply × Session :=
  match (step.command.runInPlace s.registers step.limits).run ⟨s.heap, #[]⟩ with
  | (.error failure, bench) =>
    (⟨.error failure, (step.command.subject? s.registers).map bench.heap.snapshot, bench.log⟩,
      ⟨bench.heap, s.registers⟩)
  | (.ok outcome, bench) =>
    (⟨.ok outcome.answer, outcome.subject.map bench.heap.snapshot, bench.log⟩,
      ⟨bench.heap, kept s.registers step.keep outcome.item⟩)

/-- Runs the steps of a script in place, one after the other. -/
def runInPlace (s : Session) : List Step → List Reply × Session
  | [] => ([], s)
  | first :: rest =>
    let (reply, s) := s.stepInPlace first
    let (replies, s) := s.runInPlace rest
    (reply :: replies, s)

/-- The steps of a script that succeed when it is run in place. -/
def succeeding (s : Session) : List Step → List Step
  | [] => []
  | first :: rest =>
    let (reply, s) := s.stepInPlace first
    if reply.succeeded then first :: s.succeeding rest else s.succeeding rest

/-- Sessions that differ in the names of storage: a renaming relates what the registers
lead to. -/
def Alike (s t : Session) : Prop :=
  ∃ R, Renaming s.heap t.heap R ∧ PairedRegisters R s.registers t.registers

/-! ### One step -/

section

variable {s t : Session} {R : Item → Item → Prop} {regs regs' : Registers}

theorem subject?_related (related : PairedRegisters R regs regs') (command : Command) :
    Option.Rel R (command.subject? regs) (command.subject? regs') := by
  cases command with
  | onSeq kind x action =>
    cases x with
    | register name => exact related.find? name
    | _ => exact .none
  | onMap x action =>
    cases x with
    | register name => exact related.find? name
    | _ => exact .none
  | _ => exact .none

theorem snapshot?_eq {h g : Heap} (ρ : Renaming h g R) {p q : Option Item}
    (related : Option.Rel R p q) : p.map h.snapshot = q.map g.snapshot := by
  cases related with
  | some hxy => rw [Option.map_some, Option.map_some, ρ.snapshot_eq hxy]
  | none => rw [Option.map_none, Option.map_none]

theorem kept_related (related : PairedRegisters R regs regs') (keep : Option String)
    {p q : Option Item} (hpq : Option.Rel R p q) :
    PairedRegisters R (kept regs keep p) (kept regs' keep q) := by
  cases keep with
  | none => exact related
  | some name =>
    cases hpq with
    | some hxy => exact related.put name hxy
    | none => exact related

/-- A step gives the same reply in place, and leaves the sessions alike. -/
theorem Alike.step (alike : s.Alike t) (st : Step) :
    (s.step st).1 = (t.stepInPlace st).1 ∧ (s.step st).2.Alike (t.stepInPlace st).2 := by
  obtain ⟨R, ρ, registers⟩ := alike
  have matched := st.command.run_matches registers st.limits s.heap t.heap #[] ρ
  rw [Session.step, stepInPlace]
  generalize (st.command.run s.registers st.limits).run ⟨s.heap, #[]⟩ = done,
    (st.command.runInPlace t.registers st.limits).run ⟨t.heap, #[]⟩ = done' at matched
  cases matched with
  | failed failure grown =>
    -- What the failed step has made is not related to anything.
    have ρ' := ρ.grown (.refl s.heap) grown
    have subject := snapshot?_eq ρ' (subject?_related registers st.command)
    exact ⟨by simp only [subject], R, ρ', registers⟩
  | @done o o' h g log R' more ρ' _ alike =>
    have subject := snapshot?_eq ρ' alike.subject
    refine ⟨by simp only [subject, alike.answer], R', ρ', ?_⟩
    exact kept_related (registers.mono more) st.keep alike.item

end

/-! ### Scripts -/

section

variable {s t t' : Session}

/-- A script gives the same replies in place, and leaves the sessions alike. -/
theorem Alike.run (alike : s.Alike t) (steps : List Step) (replies : List Reply) :
    (Session.run steps s replies).1 = replies.reverse ++ (t.runInPlace steps).1 ∧
      (Session.run steps s replies).2.Alike (t.runInPlace steps).2 := by
  induction steps generalizing s t replies with
  | nil => exact ⟨(List.append_nil _).symm, alike⟩
  | cons first rest ih =>
    obtain ⟨reply, next⟩ := alike.step first
    obtain ⟨others, last⟩ := ih next ((s.step first).1 :: replies)
    refine ⟨?_, last⟩
    rw [Session.run, runInPlace]
    dsimp only
    rw [others, reply, List.reverse_cons, List.append_assoc]
    rfl

theorem step_of_not_succeeded {st : Step} (fails : ¬ (s.step st).1.succeeded = true) :
    (s.step st).2 = s := by
  cases hanswer : (s.step st).1.answer with
  | error failure => exact step_of_failed hanswer
  | ok answer =>
    rw [Reply.succeeded, hanswer] at fails
    exact absurd rfl fails

/-- Without the steps that fail, a script in place gives the other replies, and both stay
alike to the session that goes back after a failure. -/
theorem Alike.succeeding (alike : s.Alike t) (alike' : s.Alike t') (steps : List Step) :
    (t'.runInPlace (t.succeeding steps)).1
        = (t.runInPlace steps).1.filter Reply.succeeded ∧
      ∃ s' : Session, s'.Alike (t.runInPlace steps).2 ∧
        s'.Alike (t'.runInPlace (t.succeeding steps)).2 := by
  induction steps generalizing s t t' with
  | nil => exact ⟨rfl, s, alike, alike'⟩
  | cons first rest ih =>
    obtain ⟨reply, next⟩ := alike.step first
    rw [Session.succeeding, Session.runInPlace]
    dsimp only
    rw [← reply]
    by_cases succeeds : (s.step first).1.succeeded = true
    · obtain ⟨reply', next'⟩ := alike'.step first
      obtain ⟨others, last⟩ := ih next next'
      rw [if_pos succeeds, List.filter_cons_of_pos succeeds, runInPlace]
      dsimp only
      rw [← reply', others]
      exact ⟨rfl, last⟩
    · -- The session that goes back has not moved, nor has the run without the step.
      rw [step_of_not_succeeded succeeds] at next
      obtain ⟨others, last⟩ := ih next alike'
      rw [if_neg succeeds, List.filter_cons_of_neg succeeds]
      exact ⟨others, last⟩

/-- Sessions that are alike to a third one are alike. -/
theorem Alike.of_common (alike : s.Alike t) (alike' : s.Alike t') : t.Alike t' := by
  obtain ⟨R, ρ, related⟩ := alike
  obtain ⟨R', ρ', related'⟩ := alike'
  refine ⟨_, ρ.symm.trans ρ', ?_⟩
  refine forall₂_iff_getElem?.2 ⟨related.length_eq.symm.trans related'.length_eq, ?_⟩
  intro i b c hb hc
  obtain ⟨a, ha⟩ := exists_getElem? related.length_eq hb
  obtain ⟨hname, hab⟩ := (forall₂_iff_getElem?.1 related).2 i a b ha hb
  obtain ⟨hname', hac⟩ := (forall₂_iff_getElem?.1 related').2 i a c ha hc
  exact ⟨hname.symm.trans hname', a.2, hab, hac⟩

/-- A session whose storage and registers lead nowhere else is alike to itself. -/
theorem Alike.refl (closed : s.heap.Closed)
    (held : ∀ named ∈ s.registers.toList, s.heap.Holds named.2) : s.Alike s := by
  refine ⟨_, closed.renaming, forall₂_iff_getElem?.2 ⟨rfl, ?_⟩⟩
  intro i a b ha hb
  rw [ha, Option.some_inj] at hb
  subst hb
  exact ⟨rfl, rfl, held a (List.mem_of_getElem? ha)⟩

/-- A script that is run in place gives the replies, and leaves the contents, that it does if
every failed step is taken back.  If the steps that fail are left out, the other steps give the
same replies as before, and the registers lead to the same contents, up to the names of
storage. -/
theorem failures_leave_no_trace (closed : s.heap.Closed)
    (held : ∀ named ∈ s.registers.toList, s.heap.Holds named.2) (steps : List Step) :
    ((Session.run steps s []).1 = (s.runInPlace steps).1 ∧
      (Session.run steps s []).2.Alike (s.runInPlace steps).2) ∧
    (s.runInPlace (s.succeeding steps)).1 = (s.runInPlace steps).1.filter Reply.succeeded ∧
    (s.runInPlace (s.succeeding steps)).2.Alike (s.runInPlace steps).2 := by
  have start := Alike.refl closed held
  obtain ⟨others, s', full, part⟩ := start.succeeding start steps
  exact ⟨start.run steps [], others, part.of_common full⟩

end

/-- A script whose second and third steps fail halfway: a copy for which the budget does not
suffice, and a stored array whose second item is missing. -/
def interrupted : List Step :=
  [{ command := .give (.seq .struct [.seq .struct [.prim (.boolean true)], .prim (.boolean true)])
     keep := some "s" },
   { command := .onSeq .struct (.register "s") .cloneWithin, limits := { maxCloneLength := 2 } },
   { command := .deserialize [0x40, 2, 0x40, 0] },
   { command := .cloneValue (.register "s"), keep := some "t" },
   { command := .equals (.register "s") (.register "t") }]

/-- In place, the steps that fail leave a struct and an array behind. -/
theorem failures_leave_no_trace_interrupted :
    ((({} : Session).runInPlace interrupted).1.map Reply.succeeded
        = [true, false, false, true, true] ∧
      (({} : Session).runInPlace interrupted).2.heap.structs.size = 5 ∧
      (({} : Session).runInPlace interrupted).2.heap.arrays.size = 1 ∧
      (({} : Session).runInPlace (({} : Session).succeeding interrupted)).2.heap.structs.size = 4 ∧
      (({} : Session).runInPlace (({} : Session).succeeding interrupted)).2.heap.arrays.size = 0) ∧
    (({} : Session).runInPlace (({} : Session).succeeding interrupted)).1
      = (({} : Session).runInPlace interrupted).1.filter Reply.succeeded ∧
    (({} : Session).runInPlace (({} : Session).succeeding interrupted)).2.Alike
      (({} : Session).runInPlace interrupted).2 := by
  obtain ⟨-, others, alike⟩ := failures_leave_no_trace (s := {}) closed_empty
    (fun _ none => absurd none List.not_mem_nil) interrupted
  exact ⟨⟨rfl, rfl, rfl, rfl, rfl⟩, others, alike⟩

end Session

end StackItems
