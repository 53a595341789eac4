/-
Operands in renamed heaps.

The operands of a step are found in registers or made anew.  From registers with related
items they are the same up to the names of storage, in heaps that differ in such names.

* `PairedRegisters` — the same names with related items;
* `eval_alike` — **an expression makes related items, or fails alike.**
-/
import StackItems.Proofs.RenamedStorage
import StackItems.Script

namespace StackItems

/-- Registers with the same names and related items. -/
def PairedRegisters (R : Item → Item → Prop) (regs regs' : Registers) : Prop :=
  List.Forall₂ (KeyedAlike R) regs.toList regs'.toList

section

variable {R R' : Item → Item → Prop} {regs regs' : Registers} {x y : Item}

theorem PairedRegisters.mono (related : PairedRegisters R regs regs') (more : Subrelation R R') :
    PairedRegisters R' regs regs' := List.Forall₂.imp (fun _ _ hab => ⟨hab.1, more hab.2⟩) related

theorem PairedRegisters.find? (related : PairedRegisters R regs regs') (name : String) :
    Option.Rel R (regs.find? name) (regs'.find? name) := Heap.lookup_related related name

theorem putIn_related (name : String) (hxy : R x y) {l l' : List (String × Item)}
    (related : List.Forall₂ (KeyedAlike R) l l') :
    List.Forall₂ (KeyedAlike R) (Registers.putIn name x l) (Registers.putIn name y l') := by
  induction related with
  | nil => exact .cons ⟨rfl, hxy⟩ .nil
  | @cons a b as bs hab rest ih =>
    rw [Registers.putIn, Registers.putIn, hab.1]
    split
    · exact .cons ⟨rfl, hxy⟩ rest
    · split
      · exact .cons ⟨rfl, hxy⟩ (.cons hab rest)
      · exact .cons hab ih

theorem PairedRegisters.put (related : PairedRegisters R regs regs') (name : String)
    (hxy : R x y) : PairedRegisters R (regs.put name x) (regs'.put name y) :=
  putIn_related name hxy related

theorem pairedItems_replicate (n : Nat) (hxy : R x y) :
    PairedItems R (Array.replicate n x) (Array.replicate n y) := by
  rw [PairedItems, Array.toList_replicate, Array.toList_replicate]
  induction n with
  | zero => exact .nil
  | succ n ih => exact .cons hxy ih

theorem pairedItems_prims {α : Type} (prim : ∀ p, R (.prim p) (.prim p)) (f : α → Primitive)
    (as : Array α) : PairedItems R (as.map fun a => .prim (f a)) (as.map fun a => .prim (f a)) := by
  rw [PairedItems, Array.toList_map, List.forall₂_map_left_iff, List.forall₂_map_right_iff]
  exact List.forall₂_same.2 fun a _ => prim (f a)

end

namespace Heap

section

variable {h g : Heap} {R : Item → Item → Prop} {α β γ δ : Type}

/-- Two results of making something: the same failure, or the same thing made. -/
abbrev ResultAlike (R : Item → Item → Prop) (g : Heap) (S : (Item → Item → Prop) → α → β → Prop) :
    Except Failure (α × Heap) → Except Failure (β × Heap) → Prop := Likewise (MadeAlike R g S)

theorem ResultAlike.bind {S : (Item → Item → Prop) → α → β → Prop}
    {T : (Item → Item → Prop) → γ → δ → Prop} {make : Making α} {make' : Making β}
    {next : α → Making γ} {next' : β → Making δ} (first : ResultAlike R g S (make h) (make' g))
    (others : ∀ a b h' g' R', Subrelation R R' → Renaming h' g' R' → S R' a b →
      ResultAlike R' g' T (next a h') (next' b g')) :
    ResultAlike R g T ((make >>= next) h) ((make' >>= next') g) := by
  rw [bind_apply, bind_apply]
  generalize make h = made, make' g = made' at first
  cases first with
  | failed cause => exact .failed cause
  | @done a b alike =>
    obtain ⟨a, h'⟩ := a
    obtain ⟨b, g'⟩ := b
    obtain ⟨R', more, ρ, grown, related⟩ := alike
    have rest := others a b h' g' R' more ρ related
    show ResultAlike R g T (next a h') (next' b g')
    generalize next a h' = made, next' b g' = made' at rest
    cases rest with
    | failed cause => exact .failed cause
    | done alike => exact .done (alike.after more grown)

theorem Renaming.lift_alike (ρ : Renaming h g R) (result : Except Fault α) :
    ResultAlike R g (fun _ => Eq) (Making.lift result h) (Making.lift result g) := by
  cases result with
  | error cause => exact .failed _
  | ok a => exact .done (ρ.unchanged rfl)

theorem Renaming.container_alike (ρ : Renaming h g R) (kind : Container) {xs ys : Array Item}
    (related : PairedItems R xs ys) :
    ResultAlike R g (fun R' => R') (Making.container kind xs h) (Making.container kind ys g) := by
  cases kind with
  | seq kind => exact .done (ρ.newSeq kind related)
  | map => exact .done (ρ.newMap (pairedEntries_numbered related))

/-- Containers around related items, one around the other, are made alike. -/
theorem Renaming.foldlM_alike {level level' : Item → α → Making Item}
    (each : ∀ {h g : Heap} {R : Item → Item → Prop} {x y : Item} (a : α), Renaming h g R →
      R x y → ResultAlike R g (fun R' => R') (level x a h) (level' y a g))
    (levels : List α) {x y : Item} (ρ : Renaming h g R) (hxy : R x y) :
    ResultAlike R g (fun R' => R') (levels.foldlM level x h) (levels.foldlM level' y g) := by
  induction levels generalizing x y h g R with
  | nil => exact .done (ρ.unchanged (S := fun R' => R') hxy)
  | cons a levels ih =>
    rw [List.foldlM_cons, List.foldlM_cons]
    exact (each a ρ hxy).bind fun x' y' h' g' R' _ ρ' hxy' => ih ρ' hxy'

end

mutual

/-- From registers with related items, an expression makes related items or fails in both
heaps alike. -/
theorem Renaming.eval_alike {h g : Heap} {R : Item → Item → Prop} {regs regs' : Registers}
    (ρ : Renaming h g R) (related : PairedRegisters R regs regs') (e : Expr) :
    ResultAlike R g (fun R' => R') (e.eval regs h) (e.eval regs' g) := by
  cases e with
  | register name =>
    rw [Expr.eval, Expr.eval]
    have found := related.find? name
    revert found
    generalize regs.find? name = p
    generalize regs'.find? name = q
    rintro (hpq | _)
    · exact .done (ρ.unchanged (S := fun R' => R') hpq)
    · exact .failed _
  | prim p =>
    rw [Expr.eval, Expr.eval]
    exact .done (ρ.unchanged (S := fun R' => R') (ρ.prim p))
  | host object =>
    rw [Expr.eval, Expr.eval]
    exact .done (ρ.newHost object)
  | seq kind elements =>
    rw [Expr.eval, Expr.eval]
    apply (ρ.evalAll_alike related elements .nil).bind
    intro xs ys h' g' R' _ ρ' elements
    exact .done (ρ'.newSeq kind elements)
  | map entries =>
    rw [Expr.eval, Expr.eval]
    have none : PairedEntries R .empty .empty := .nil
    apply (ρ.evalEntries_alike related entries none).bind
    intro es fs h' g' R' _ ρ' entries
    exact .done (ρ'.newMap entries)
  | nest kinds depth leaf =>
    rw [Expr.eval, Expr.eval]
    apply (ρ.eval_alike related leaf).bind
    intro x y h' g' R' _ ρ' hxy
    refine ρ'.foldlM_alike (fun level σ hxy => ?_) _ hxy
    exact σ.container_alike _ (.cons hxy .nil)
  | lattice kind width depth leaf =>
    rw [Expr.eval, Expr.eval]
    apply (ρ.eval_alike related leaf).bind
    intro x y h' g' R' _ ρ' hxy
    refine ρ'.foldlM_alike (fun level σ hxy => ?_) _ hxy
    exact σ.container_alike _ (pairedItems_replicate width hxy)
  | range kind n =>
    rw [Expr.eval, Expr.eval]
    exact ρ.container_alike kind (pairedItems_prims ρ.prim _ _)

theorem Renaming.evalAll_alike {h g : Heap} {R : Item → Item → Prop} {regs regs' : Registers}
    (ρ : Renaming h g R) (related : PairedRegisters R regs regs') (es : List Expr)
    {xs ys : Array Item} (done : PairedItems R xs ys) :
    ResultAlike R g PairedItems (Expr.evalAll regs es xs h) (Expr.evalAll regs' es ys g) := by
  cases es with
  | nil =>
    rw [Expr.evalAll, Expr.evalAll]
    exact .done (ρ.unchanged done)
  | cons e es =>
    rw [Expr.evalAll, Expr.evalAll]
    apply (ρ.eval_alike related e).bind
    intro x y h' g' R' more ρ' hxy
    exact ρ'.evalAll_alike (related.mono more) es ((done.mono more).push hxy)

theorem Renaming.evalEntries_alike {h g : Heap} {R : Item → Item → Prop} {regs regs' : Registers}
    (ρ : Renaming h g R) (related : PairedRegisters R regs regs') (entries : List (Expr × Expr))
    {es fs : Entries Item} (done : PairedEntries R es fs) :
    ResultAlike R g PairedEntries (Expr.evalEntries regs entries es h)
      (Expr.evalEntries regs' entries fs g) := by
  match entries with
  | [] =>
    rw [Expr.evalEntries, Expr.evalEntries]
    exact .done (ρ.unchanged done)
  | (key, value) :: entries =>
    rw [Expr.evalEntries, Expr.evalEntries]
    apply (ρ.eval_alike related key).bind
    intro x y h' g' R' more ρ' hxy
    rw [(ρ'.conversions_eq hxy).2.2.2]
    apply (ρ'.lift_alike y.toKey).bind
    rintro k _ h₁ g₁ R₁ more₁ ρ₁ rfl
    have related₁ := (related.mono more).mono more₁
    apply (ρ₁.eval_alike related₁ value).bind
    intro x' y' h₂ g₂ R₂ more₂ ρ₂ hxy'
    have sofar := ((done.mono more).mono more₁).mono more₂
    exact ρ₂.evalEntries_alike (related₁.mono more₂) entries (sofar.insert k hxy')

end

end Heap

end StackItems
