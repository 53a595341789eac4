/-
New storage for a tree.

* `Carries` — an item that was made to have a tree: all of its storage is new and
  none of it shared;
* `carries_newSeq`, `carries_newMap` — a new container of such items is such an item;
* `build_carries` — what is made for a storable tree is such an item.
-/
import StackItems.Proofs.Separate
import StackItems.Proofs.Storable

namespace StackItems

namespace Heap

/-- An item that was made between two heaps to have a tree. -/
abbrev Carries (h h' : Heap) (x : Item) (t : Tree) : Prop :=
  Makes Kind.isCompound Unfolds h h' x t

/-- The same for several items. -/
abbrev CarriesAll (h h' : Heap) (xs : List Item) (ts : List Tree) : Prop :=
  MakesAll Kind.isCompound Unfolds h h' xs ts

/-- An item in held storage unfolds to the same tree when the heap grows. -/
theorem lasts_unfolds : Lasts Kind.isCompound Unfolds := by
  intro h h' x t u a held
  induction u with
  | prim p => exact .prim p
  | @seq r kind children same size each ih =>
    have hk := isCompound_seq r
    have hr := a.same (.seq r) (held [] _ rfl hk)
    have hitems : h'.items r = h.items r := hr.contents_eq
    refine .seq same (by rw [hitems, size]) ?_
    intro i x t hx ht
    rw [hitems] at hx
    apply ih i x t hx ht
    intro p c hc
    exact held (i :: p) c ((at?_cons_eq_some hk).2 ⟨x, hx, hc⟩)
  | @map r entries size keys each ih =>
    have hr : h'.entries r = h.entries r := a.same (.map r) (held [] _ rfl rfl)
    refine .map (by rw [hr, size]) (fun i c e hc => keys i c e (by rwa [hr] at hc)) ?_
    intro i c e hc he
    rw [hr] at hc
    apply ih i c e hc he
    intro p d hd
    refine held (i :: p) d ((at?_cons_eq_some rfl).2 ⟨c.2, ?_, hd⟩)
    rw [Heap.contents, Entries.values, List.getElem?_map, hc, Option.map_some]

section

variable {h h' : Heap} {ts : List Tree}

/-- A new sequence of separate items carries the sequence of their trees. -/
theorem carries_newSeq {xs : Array Item} (c : CarriesAll h h' xs.toList ts) (kind : SeqKind) :
    Carries h (h'.newSeq kind xs).2 (.seq (h'.newSeq kind xs).1) (.seq kind ts) where
  grown := c.grown.trans (h'.extends_newSeq kind xs)
  separate := .newSeq (isCompound_seq ⟨kind, 0⟩) c.separate c.grown
  shows := by
    have hitems : (h'.newSeq kind xs).2.items (h'.newSeq kind xs).1 = xs.toList := by
      rw [items, elements_newSeq_self]
    refine .seq rfl (by rw [hitems, c.size]) ?_
    rw [hitems]
    exact c.shows_of_extends lasts_unfolds (h'.extends_newSeq kind xs)

/-- A new map to separate items carries the map to their trees. -/
theorem carries_newMap {acc : Entries Item} {es : List (Primitive × Tree)}
    (c : CarriesAll h h' acc.values (es.map Prod.snd)) (keys : acc.keys = es.map Prod.fst) :
    Carries h (h'.newMap acc).2 (.map (h'.newMap acc).1) (.map es) where
  grown := c.grown.trans (h'.extends_newMap acc)
  separate := .newMap rfl c.separate c.grown
  shows := by
    have hentries := h'.entries_newMap_self acc
    have size := c.size
    rw [Entries.values, List.length_map, List.length_map] at size
    refine .map (by rw [hentries, size]) ?_ ?_
    · intro i a e ha he
      rw [hentries] at ha
      have hkeys := congrArg (·[i]?) keys
      rw [Entries.keys, List.getElem?_map, List.getElem?_map, ha, he] at hkeys
      exact Option.some.inj hkeys
    · intro i a e ha he
      rw [hentries] at ha
      have ha' : acc.values[i]? = some a.2 := by
        rw [Entries.values, List.getElem?_map, ha, Option.map_some]
      have he' : (es.map Prod.snd)[i]? = some e.2 := by
        rw [List.getElem?_map, he, Option.map_some]
      exact c.shows_of_extends lasts_unfolds (h'.extends_newMap acc) i a.2 e.2 ha' he'

end

end Heap

namespace Tree

open Heap

theorem buildAll_carries {ts : List Tree}
    (each : ∀ t ∈ ts, ∀ h, Carries h (t.build h).2 (t.build h).1 t) {h h' : Heap}
    {xs : Array Item} {done : List Tree} (c : CarriesAll h h' xs.toList done) :
    CarriesAll h (buildAll ts xs h').2 (buildAll ts xs h').1.toList (done ++ ts) := by
  induction ts generalizing h' xs done with
  | nil => rwa [buildAll, List.append_nil]
  | cons t ts ih =>
    have hnext : CarriesAll h (t.build h').2 (xs.push (t.build h').1).toList (done ++ [t]) := by
      rw [Array.toList_push]
      exact c.concat lasts_unfolds (each t (List.mem_cons_self ..) h')
    have hrest := ih (fun t' ht' => each t' (List.mem_cons_of_mem t ht')) hnext
    rwa [List.append_assoc] at hrest

theorem buildEntries_carries {es : List (Primitive × Tree)}
    (each : ∀ e ∈ es, ∀ h, Carries h (e.2.build h).2 (e.2.build h).1 e.2) {h h' : Heap}
    {acc : Entries Item} {done : List (Primitive × Tree)}
    (c : CarriesAll h h' acc.values (done.map Prod.snd)) (keys : acc.keys = done.map Prod.fst)
    (distinct : ((done ++ es).map Prod.fst).Nodup) :
    CarriesAll h (buildEntries es acc h').2 (buildEntries es acc h').1.values
        ((done ++ es).map Prod.snd) ∧
      (buildEntries es acc h').1.keys = (done ++ es).map Prod.fst := by
  induction es generalizing h' acc done with
  | nil =>
    rw [buildEntries, List.append_nil]
    exact ⟨c, keys⟩
  | cons e es ih =>
    obtain ⟨k, t⟩ := e
    -- The key is new, so its entry goes behind those already made.
    have hk : k ∉ acc.keys := by
      rw [List.map_append, List.nodup_append] at distinct
      rw [keys]
      intro hmem
      exact distinct.2.2 k hmem k (List.mem_cons_self ..) rfl
    have hinsert := Entries.toList_insert_of_not_mem (t.build h').1 hk
    have hvalues : (acc.insert k (t.build h').1).values = acc.values ++ [(t.build h').1] := by
      rw [Entries.values, hinsert, List.map_append]
      rfl
    have hkeys : (acc.insert k (t.build h').1).keys = (done ++ [(k, t)]).map Prod.fst := by
      rw [Entries.keys, hinsert, List.map_append, List.map_append, ← keys]
      rfl
    have hnext : CarriesAll h (t.build h').2 (acc.insert k (t.build h').1).values
        ((done ++ [(k, t)]).map Prod.snd) := by
      rw [hvalues, List.map_append]
      exact c.concat lasts_unfolds (each (k, t) (List.mem_cons_self ..) h')
    have hrest := ih (fun e' he' => each e' (List.mem_cons_of_mem _ he'))
      hnext hkeys (by rwa [List.append_assoc])
    rwa [List.append_assoc] at hrest

/-- New storage for a tree with distinct keys carries the tree. -/
theorem build_carries {limits : Limits} {depth : Nat} {t : Tree} (ht : Storable limits depth t)
    (h : Heap) : Carries h (t.build h).2 (t.build h).1 t := by
  induction ht generalizing h with
  | @prim depth p small =>
    rw [build]
    exact ⟨.refl h, .of_not_follow (by cases p <;> rfl), .prim p⟩
  | seq room each ih =>
    have hnil : CarriesAll h h (#[] : Array Item).toList [] := .nil h
    exact carries_newSeq (buildAll_carries ih hnil) _
  | map room distinct small each ih =>
    have hnil : CarriesAll h h (Entries.empty : Entries Item).values
        (([] : List (Primitive × Tree)).map Prod.snd) := .nil h
    obtain ⟨hall, keys⟩ := buildEntries_carries ih hnil rfl distinct
    exact carries_newMap hall keys

end Tree

end StackItems
