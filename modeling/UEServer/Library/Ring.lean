import Mathlib.Data.List.Nodup

/-!
# Rings of linked nodes

Circular lists whose nodes know the node before and the node after them.  A node is taken out of a
ring, or put in front of the root, by rewiring its neighbours.
-/

/-- The nodes before and after each node. -/
structure Links where
  prev : ℕ → ℕ
  next : ℕ → ℕ

namespace Links

def flip (links : Links) : Links := ⟨links.next, links.prev⟩

/-- The neighbours of a node are linked to each other. -/
def unlink (links : Links) (node : ℕ) : Links :=
  let links := { links with next := Function.update links.next (links.prev node) (links.next node) }
  { links with prev := Function.update links.prev (links.next node) (links.prev node) }

/-- A node is linked between the root and the node before it. -/
def attach (links : Links) (root node : ℕ) : Links :=
  let last := links.prev root
  { prev := Function.update (Function.update links.prev node last) root node
    next := Function.update (Function.update links.next node root) last node }

/-- From one node over some nodes to another one, in both directions. -/
def Segment (links : Links) : ℕ → List ℕ → ℕ → Prop
  | first, [], last => links.next first = last ∧ links.prev last = first
  | first, node :: nodes, last =>
      links.next first = node ∧ links.prev node = first ∧ links.Segment node nodes last

/-- Different nodes that are linked in a circle, beginning and ending at the root. -/
structure Ring (links : Links) (root : ℕ) (nodes : List ℕ) : Prop where
  segment : links.Segment root nodes root
  nodup : (root :: nodes).Nodup

variable {links after : Links} {first node last root target : ℕ} {front back nodes : List ℕ}

theorem segment_append :
    links.Segment first (front ++ node :: back) last ↔
      links.Segment first front node ∧ links.Segment node back last := by
  induction front generalizing first with
  | nil => exact and_assoc.symm
  | cons other front ih =>
      rw [List.cons_append, Segment, Segment, ih]
      exact ⟨fun ⟨next, prev, both⟩ => ⟨⟨next, prev, both.1⟩, both.2⟩,
        fun ⟨⟨next, prev, front⟩, back⟩ => ⟨next, prev, front, back⟩⟩

section
variable (segment : links.Segment first nodes last)
include segment

theorem Segment.congr (next : ∀ node ∈ first :: nodes, after.next node = links.next node)
    (prev : ∀ node ∈ nodes ++ [last], after.prev node = links.prev node) :
    after.Segment first nodes last := by
  induction nodes generalizing first with
  | nil =>
      refine ⟨?_, ?_⟩
      · exact (next first List.mem_cons_self).trans segment.1
      · exact (prev last List.mem_cons_self).trans segment.2
  | cons node nodes ih =>
      refine ⟨?_, ?_, ?_⟩
      · exact (next first List.mem_cons_self).trans segment.1
      · exact (prev node List.mem_cons_self).trans segment.2.1
      · exact ih segment.2.2 (fun other mem => next other (List.mem_cons_of_mem first mem))
          fun other mem => prev other (List.mem_cons_of_mem node mem)

theorem Segment.prev_mem : links.prev last ∈ first :: nodes := by
  induction nodes generalizing first with
  | nil => exact List.mem_singleton.mpr segment.2
  | cons node nodes ih => exact List.mem_cons_of_mem first (ih segment.2.2)

theorem Segment.next_eq : links.next first = nodes.head?.getD last := by
  cases nodes with
  | nil => exact segment.1
  | cons node nodes => exact segment.1

theorem Segment.retarget (nodup : (first :: nodes).Nodup)
    (next : ∀ node ∈ first :: nodes, after.next node = if node = links.prev last then target else links.next node)
    (prev : ∀ node ∈ nodes, after.prev node = links.prev node)
    (target_prev : after.prev target = links.prev last) : after.Segment first nodes target := by
  induction nodes generalizing first with
  | nil =>
      refine ⟨?_, target_prev.trans segment.2⟩
      rw [next first List.mem_cons_self, if_pos segment.2.symm]
  | cons node nodes ih =>
      have later : links.prev last ∈ node :: nodes := segment.2.2.prev_mem
      have other : first ≠ links.prev last := by
        intro same
        exact (List.nodup_cons.mp nodup).1 (same ▸ later)
      refine ⟨?_, ?_, ?_⟩
      · rw [next first List.mem_cons_self, if_neg other]
        exact segment.1
      · rw [prev node List.mem_cons_self]
        exact segment.2.1
      · exact ih segment.2.2 (List.nodup_cons.mp nodup).2
          (fun node mem => next node (List.mem_cons_of_mem first mem))
          fun other mem => prev other (List.mem_cons_of_mem node mem)

theorem Segment.flip : links.flip.Segment last nodes.reverse first := by
  induction nodes generalizing first with
  | nil => exact ⟨segment.2, segment.1⟩
  | cons node nodes ih =>
      rw [List.reverse_cons]
      exact segment_append.mpr ⟨ih segment.2.2, segment.2.1, segment.1⟩

end

theorem ring_self (prev : links.prev root = root) (next : links.next root = root) :
    links.Ring root [] :=
  ⟨⟨next, prev⟩, List.nodup_singleton root⟩

theorem Ring.flip (ring : links.Ring root nodes) : links.flip.Ring root nodes.reverse where
  segment := ring.segment.flip
  nodup := List.nodup_cons.mpr
    ⟨fun mem => (List.nodup_cons.mp ring.nodup).1 (List.mem_reverse.mp mem),
      List.nodup_reverse.mpr (List.nodup_cons.mp ring.nodup).2⟩

theorem Ring.next_root (ring : links.Ring root nodes) : links.next root = nodes.head?.getD root :=
  ring.segment.next_eq

theorem Ring.next_node (ring : links.Ring root (front ++ node :: back)) :
    links.next node = back.head?.getD root :=
  (segment_append.mp ring.segment).2.next_eq

theorem Ring.unlink (ring : links.Ring root (front ++ node :: back)) :
    (links.unlink node).Ring root (front ++ back) := by
  obtain ⟨before, behind⟩ := segment_append.mp ring.segment
  have nodup : (root :: front ++ node :: back).Nodup := ring.nodup
  obtain ⟨front_nodup, back_nodup, apart⟩ := List.nodup_append.mp nodup
  have prev_mem : links.prev node ∈ root :: front := before.prev_mem
  have other : node ≠ links.prev node := fun same =>
    apart _ prev_mem node List.mem_cons_self same.symm
  have next : ∀ other, (links.unlink node).next other =
      if other = links.prev node then links.next node else links.next other := by
    intro other
    exact Function.update_apply ..
  have prev : ∀ other, (links.unlink node).prev other =
      if other = links.next node then links.prev node else links.prev other := by
    intro place
    dsimp only [Links.unlink]
    rw [Function.update_of_ne other, Function.update_apply]
  refine ⟨?_, ?_⟩
  · cases back with
    | nil =>
        have target : links.next node = root := behind.1
        rw [List.append_nil]
        refine before.retarget front_nodup (fun other _ => ?_) (fun other mem => ?_) ?_
        · rw [next, target]
        · have inside : other ≠ root := fun same =>
            (List.nodup_cons.mp front_nodup).1 (same ▸ mem)
          rw [prev, target, if_neg inside]
        · rw [prev, target, if_pos rfl]
    | cons successor back =>
        have target : links.next node = successor := behind.1
        have later : ∀ place ∈ successor :: back, place ∉ root :: front := fun place mem inside =>
          apart place inside place (List.mem_cons_of_mem node mem) rfl
        refine segment_append.mpr ⟨?_, ?_⟩
        · refine before.retarget front_nodup (fun other _ => ?_) (fun other mem => ?_) ?_
          · rw [next, target]
          · have outside : other ≠ successor := fun same =>
              later successor List.mem_cons_self (same ▸ List.mem_cons_of_mem root mem)
            rw [prev, target, if_neg outside]
          · rw [prev, target, if_pos rfl]
        · refine behind.2.2.congr (fun other mem => ?_) fun other mem => ?_
          · have outside : other ≠ links.prev node := fun same => later other mem (same ▸ prev_mem)
            rw [next, if_neg outside]
          · have outside : other ≠ successor := by
              rintro rfl
              rcases List.mem_append.mp mem with mem | mem
              · exact (List.nodup_cons.mp (List.nodup_cons.mp back_nodup).2).1 mem
              · obtain rfl := List.mem_singleton.mp mem
                exact later other List.mem_cons_self List.mem_cons_self
            rw [prev, target, if_neg outside]
  · exact List.nodup_append.mpr ⟨front_nodup, (List.nodup_cons.mp back_nodup).2,
      fun place mem other later => apart place mem other (List.mem_cons_of_mem node later)⟩

theorem Ring.attach (ring : links.Ring root nodes) (new : node ∉ root :: nodes) :
    (links.attach root node).Ring root (nodes ++ [node]) := by
  have last_mem : links.prev root ∈ root :: nodes := ring.segment.prev_mem
  have not_last : node ≠ links.prev root := fun same => new (same ▸ last_mem)
  have not_root : node ≠ root := fun same => new (same ▸ List.mem_cons_self)
  refine ⟨segment_append.mpr ⟨?_, ?_, ?_⟩, ?_⟩
  · refine ring.segment.retarget ring.nodup (fun other mem => ?_) (fun other mem => ?_) ?_
    · have old : other ≠ node := fun same => new (same ▸ mem)
      dsimp only [Links.attach]
      rw [Function.update_apply, Function.update_of_ne old]
    · have old : other ≠ node := fun same => new (same ▸ List.mem_cons_of_mem root mem)
      have inside : other ≠ root := fun same =>
        (List.nodup_cons.mp ring.nodup).1 (same ▸ mem)
      dsimp only [Links.attach]
      rw [Function.update_of_ne inside, Function.update_of_ne old]
    · dsimp only [Links.attach]
      rw [Function.update_of_ne not_root, Function.update_self]
  · dsimp only [Links.attach]
    rw [Function.update_of_ne not_last, Function.update_self]
  · exact Function.update_self ..
  · exact List.nodup_append.mpr ⟨ring.nodup, List.nodup_singleton node,
      fun place mem other single same => by
        cases List.mem_singleton.mp single
        exact new (same ▸ mem)⟩

end Links
