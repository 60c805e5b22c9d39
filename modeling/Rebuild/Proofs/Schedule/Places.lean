import Mathlib.Data.List.Count
import Rebuild.Schedule

/-!
# Places of edges

An edge that was queued stands in the queue or among those that its pool has set aside. Taking an
edge and giving back its place move edges between the two, and what moves is neither lost nor
doubled. What a pool counts as running changes by one when one of its edges is taken or gives back
its place, and a place is only taken while there is one.
-/

namespace Rebuild.Schedule

variable {g : Graph} {s s' : Schedule}

/-- The pool that bounds an edge. -/
def poolOf? (g : Graph) (e : EdgeId) : Option PoolId := (bound? g e).map Prod.fst

theorem bound?_eq_some {e : EdgeId} {p : PoolId} {d : Nat} : bound? g e = some (p, d) ↔
    (g.edge e).isPhony = false ∧ (g.edge e).pool = some p ∧ (g.pool p).depth = d ∧ d ≠ 0 := by
  unfold bound?
  dsimp only
  by_cases hphony : (g.edge e).isPhony
  · simp [hphony]
  rw [if_neg hphony]
  cases (g.edge e).pool with
  | none => simp
  | some q =>
    rw [Option.bind_some]
    by_cases hdepth : (g.pool q).depth = 0
    · rw [if_pos hdepth]
      refine ⟨(nomatch ·), ?_⟩
      rintro ⟨-, ⟨⟩, rfl, hd⟩
      exact absurd hdepth hd
    · rw [if_neg hdepth]
      simp only [Option.some.injEq, Prod.mk.injEq, hphony, true_and]
      constructor
      · rintro ⟨rfl, rfl⟩
        exact ⟨rfl, rfl, hdepth⟩
      · rintro ⟨rfl, rfl, -⟩
        exact ⟨rfl, rfl⟩

theorem poolOf?_eq_some {e : EdgeId} {p : PoolId} : poolOf? g e = some p ↔
    (g.edge e).isPhony = false ∧ (g.edge e).pool = some p ∧ (g.pool p).depth ≠ 0 := by
  rw [poolOf?, Option.map_eq_some_iff]
  constructor
  · rintro ⟨⟨q, d⟩, h, rfl⟩
    obtain ⟨hphony, hpool, hdepth, hd⟩ := bound?_eq_some.mp h
    exact ⟨hphony, hpool, hdepth ▸ hd⟩
  · rintro ⟨hphony, hpool, hd⟩
    exact ⟨(p, (g.pool p).depth), bound?_eq_some.mpr ⟨hphony, hpool, rfl, hd⟩, rfl⟩

theorem bound?_of_poolOf? {e : EdgeId} {p : PoolId} (h : poolOf? g e = some p) :
    bound? g e = some (p, (g.pool p).depth) := by
  obtain ⟨hphony, hpool, hd⟩ := poolOf?_eq_some.mp h
  exact bound?_eq_some.mpr ⟨hphony, hpool, rfl, hd⟩

theorem poolOf?_of_isPhony {e : EdgeId} (h : (g.edge e).isPhony) : poolOf? g e = none := by
  rw [poolOf?, bound?, if_pos h, Option.map_none]

/-! ## Taking an edge -/

theorem loads_modifyLoad (s : Schedule) (p q : PoolId) (f : PoolLoad → PoolLoad) :
    (s.modifyLoad p f).loads.get q = if p = q then f (s.loads.get p) else s.loads.get q :=
  Table.get_modify ..

/-- What was done to a queue to take an edge from it: those in front of it went to their pools, all
of which are full, and its own pool has one place less. -/
structure Takes (g : Graph) (s : Schedule) (queue : List EdgeId) (taken : Option EdgeId)
    (s' : Schedule) (skipped : List EdgeId) : Prop where
  queue_eq : queue = skipped ++ taken.toList ++ s'.ready
  all : taken = none → s'.ready = []
  full : ∀ e ∈ skipped, ∃ p d, bound? g e = some (p, d) ∧ d ≤ (s.loads.get p).running
  room : ∀ e p d, taken = some e → bound? g e = some (p, d) → (s.loads.get p).running < d
  running : ∀ p, (s'.loads.get p).running =
    (s.loads.get p).running + taken.toList.countP (poolOf? g · = some p)
  delayed : ∀ p, (s'.loads.get p).delayed =
    (s.loads.get p).delayed ++ skipped.filter (poolOf? g · = some p)
  rest : s' = { s with ready := s'.ready, loads := s'.loads }

theorem takeFrom_takes (queue : List EdgeId) (s : Schedule) :
    ∃ skipped, Takes g s queue (takeFrom g queue s).1 (takeFrom g queue s).2 skipped := by
  induction queue generalizing s with
  | nil => exact ⟨[], rfl, fun _ => rfl, by simp, by simp [takeFrom], by simp [takeFrom],
      by simp [takeFrom], rfl⟩
  | cons e queue ih =>
    rw [takeFrom]
    cases hbound : bound? g e with
    | none =>
      have hpool : poolOf? g e = none := by rw [poolOf?, hbound, Option.map_none]
      refine ⟨[], rfl, (nomatch ·), by simp, ?_, ?_, by simp, rfl⟩
      · rintro _ p d ⟨⟩ h
        rw [hbound] at h
        cases h
      · simp [hpool]
    | some bound =>
      obtain ⟨p, d⟩ := bound
      have hpool : poolOf? g e = some p := by rw [poolOf?, hbound, Option.map_some]
      dsimp only
      by_cases hroom : (s.loads.get p).running < d
      · rw [if_pos hroom]
        refine ⟨[], rfl, (nomatch ·), by simp, ?_, fun q => ?_, fun q => ?_, rfl⟩
        · rintro _ q d' ⟨⟩ h
          rw [hbound] at h
          cases h
          exact hroom
        · dsimp only
          rw [loads_modifyLoad]
          by_cases hq : p = q
          · subst hq; simp [hpool]
          · simp [hq, hpool]
        · dsimp only
          rw [loads_modifyLoad]
          by_cases hq : p = q
          · subst hq; simp
          · simp [hq]
      · rw [if_neg hroom]
        obtain ⟨skipped, h⟩ := ih (s.modifyLoad p fun l => { l with delayed := l.delayed ++ [e] })
        have hrunning : ∀ q, ((s.modifyLoad p fun l =>
            { l with delayed := l.delayed ++ [e] }).loads.get q).running =
              (s.loads.get q).running := by
          intro q
          rw [loads_modifyLoad]
          split
          · next hq => subst hq; rfl
          · rfl
        refine ⟨e :: skipped, ?_, h.all, fun x hx => ?_, fun x q d' hx hb => ?_, fun q => ?_,
          fun q => ?_, h.rest⟩
        · exact congrArg (e :: ·) h.queue_eq
        · rcases List.mem_cons.mp hx with rfl | hx
          · exact ⟨p, d, hbound, Nat.le_of_not_lt hroom⟩
          · obtain ⟨q, d', hb, hfull⟩ := h.full x hx
            exact ⟨q, d', hb, hrunning q ▸ hfull⟩
        · rw [← hrunning q]
          exact h.room x q d' hx hb
        · rw [h.running, hrunning]
        · rw [h.delayed, loads_modifyLoad]
          by_cases hq : p = q
          · subst hq; simp [hpool]
          · simp [hq, hpool]

/-! ## Giving back a place -/

theorem release_of_none {e : EdgeId} (h : poolOf? g e = none) : s.release g e = s := by
  rw [poolOf?, Option.map_eq_none_iff] at h
  rw [release, h]

theorem release_of_some {e : EdgeId} {p : PoolId} (h : poolOf? g e = some p) :
    s.release g e = { s.modifyLoad p fun l => ⟨l.running - 1, (s.loads.get p).delayed.tail⟩ with
      ready := s.ready ++ (s.loads.get p).delayed.head?.toList } := by
  rw [release, bound?_of_poolOf? h]
  rfl

theorem stopped_frame (g : Graph) (s : Schedule) (e : EdgeId) : s.stopped g e = { s with
    ready := (s.stopped g e).ready
    loads := (s.stopped g e).loads
    running := s.running.erase e } := by
  unfold stopped release
  split <;> rfl

theorem stopped_running (g : Graph) (s : Schedule) (e : EdgeId) :
    (s.stopped g e).running = s.running.erase e := by rw [stopped_frame]

theorem stopped_of_some {e : EdgeId} {p : PoolId} (h : poolOf? g e = some p) :
    (s.stopped g e).ready = s.ready ++ (s.loads.get p).delayed.head?.toList ∧
      ∀ q, (s.stopped g e).loads.get q = if p = q then
        ⟨(s.loads.get p).running - 1, (s.loads.get p).delayed.tail⟩ else s.loads.get q := by
  rw [stopped, release_of_some h]
  exact ⟨rfl, fun q => loads_modifyLoad ..⟩

/-! ## Nothing is lost or doubled -/

/-- How often an edge stands in the queue or among those that its pool has set aside. -/
def held (g : Graph) (s : Schedule) (e : EdgeId) : Nat :=
  s.ready.count e + ((poolOf? g e).elim 0 fun p => (s.loads.get p).delayed.count e)

theorem Takes.held {taken : Option EdgeId} {skipped : List EdgeId}
    (h : Takes g s s.ready taken s' skipped) (e : EdgeId) :
    held g s' e + taken.toList.count e = held g s e := by
  have hready := congrArg (List.count e) h.queue_eq
  rw [List.count_append, List.count_append] at hready
  unfold Schedule.held
  cases hpool : poolOf? g e with
  | none =>
    have hskipped : skipped.count e = 0 := by
      refine List.count_eq_zero.mpr fun hmem => ?_
      obtain ⟨p, d, hbound, -⟩ := h.full e hmem
      rw [poolOf?, hbound] at hpool
      cases hpool
    simp only [Option.elim_none]
    omega
  | some p =>
    have hfilter : (skipped.filter (poolOf? g · = some p)).count e = skipped.count e :=
      List.count_filter (by simp [hpool])
    simp only [Option.elim_some, h.delayed, List.count_append, hfilter]
    omega

/-- What is known about places at any time: pools have set aside only edges of their own, they count
those that run, never more than their depth, and an edge is only set aside while a place of its pool
is taken or about to be. -/
structure Placed (g : Graph) (s : Schedule) : Prop where
  filed : ∀ p, ∀ e ∈ (s.loads.get p).delayed, poolOf? g e = some p
  counted : ∀ p, (s.loads.get p).running = s.running.countP (poolOf? g · = some p)
  bounded : ∀ p, (g.pool p).depth ≠ 0 → (s.loads.get p).running ≤ (g.pool p).depth
  crowded : ∀ p, (s.loads.get p).delayed ≠ [] →
    (g.pool p).depth ≤ (s.loads.get p).running + s.ready.countP (poolOf? g · = some p)

private theorem count_head_tail (l : List EdgeId) (e : EdgeId) :
    l.head?.toList.count e + l.tail.count e = l.count e := by
  cases l with
  | nil => rfl
  | cons x l => rw [List.head?_cons, Option.toList_some, List.tail_cons, ← List.count_append]; rfl

theorem held_release (hfiled : ∀ p, ∀ e ∈ (s.loads.get p).delayed, poolOf? g e = some p)
    (d e : EdgeId) : held g (s.release g d) e = held g s e := by
  cases hpool : poolOf? g d with
  | none => rw [release_of_none hpool]
  | some p =>
    have hhead : poolOf? g e ≠ some p → (s.loads.get p).delayed.head?.toList.count e = 0 :=
      fun hne => List.count_eq_zero.mpr fun hmem =>
        hne (hfiled p e (List.mem_of_head? (Option.mem_toList.mp hmem)))
    rw [release_of_some hpool]
    unfold held
    dsimp only
    rw [List.count_append]
    cases hpool' : poolOf? g e with
    | none =>
      rw [hhead (by rw [hpool']; simp), Option.elim_none, Option.elim_none]
    | some q =>
      rw [Option.elim_some, Option.elim_some, loads_modifyLoad]
      by_cases hq : p = q
      · subst hq
        rw [if_pos rfl, Nat.add_assoc, count_head_tail]
      · rw [if_neg hq, hhead (by rw [hpool']; simpa using Ne.symm hq), Nat.add_zero]

theorem held_stopped (h : Placed g s) (d e : EdgeId) : held g (s.stopped g d) e = held g s e :=
  held_release (s := { s with running := s.running.erase d }) h.filed d e

namespace Placed

variable {taken : Option EdgeId} {skipped : List EdgeId}

/-- Nothing has been set aside and nothing runs. -/
theorem idle (hloads : s.loads = default) (hrunning : s.running = []) : Placed g s := by
  have hload : ∀ p, s.loads.get p = default := fun p => hloads ▸ Table.get_default p
  refine ⟨fun p e he => ?_, fun p => ?_, fun p _ => ?_, fun p hp => ?_⟩
  · rw [hload] at he
    cases he
  · rw [hload, hrunning]
    rfl
  · rw [hload]
    exact Nat.zero_le _
  · rw [hload] at hp
    exact absurd rfl hp

/-- Places depend on queues and loads only, and the queue may get longer. -/
theorem congr (h : Placed g s) (hloads : s'.loads = s.loads) (hrunning : s'.running = s.running)
    {more : List EdgeId} (hready : s'.ready = s.ready ++ more) : Placed g s' where
  filed p e he := h.filed p e (hloads ▸ he)
  counted p := by rw [hloads, hrunning, h.counted]
  bounded p hp := hloads ▸ h.bounded p hp
  crowded p hp := by
    have hcrowd := h.crowded p (hloads ▸ hp)
    rw [hloads, hready, List.countP_append]
    omega

/-- An edge that was taken runs if it has a command. -/
theorem takes (h : Placed g s) (htakes : Takes g s s.ready taken s' skipped) {runs : List EdgeId}
    (hruns : ∀ p, runs.countP (poolOf? g · = some p) = taken.toList.countP (poolOf? g · = some p)) :
    Placed g { s' with running := s'.running ++ runs } := by
  have hframe : s'.running = s.running := by rw [htakes.rest]
  have hcount : ∀ p, taken.toList.countP (poolOf? g · = some p) ≤ 1 := fun p =>
    Nat.le_trans List.countP_le_length (by cases taken <;> simp)
  refine ⟨fun p e he => ?_, fun p => ?_, fun p hp => ?_, fun p hp => ?_⟩
  · dsimp only at he
    rw [htakes.delayed, List.mem_append] at he
    rcases he with he | he
    · exact h.filed p e he
    · simpa using (List.mem_filter.mp he).2
  · dsimp only
    rw [htakes.running, h.counted, hframe, List.countP_append, hruns]
  · dsimp only
    rw [htakes.running]
    have hle := h.bounded p hp
    by_cases hzero : taken.toList.countP (poolOf? g · = some p) = 0
    · omega
    · obtain ⟨e, he, hpool⟩ := List.countP_pos_iff.mp (Nat.pos_of_ne_zero hzero)
      have hroom := htakes.room e p _ (Option.mem_toList.mp he)
        (bound?_of_poolOf? (by simpa using hpool))
      have hone := hcount p
      omega
  · dsimp only at hp ⊢
    rw [htakes.running]
    have hqueue := congrArg (List.countP (poolOf? g · = some p)) htakes.queue_eq
    rw [List.countP_append, List.countP_append] at hqueue
    rw [htakes.delayed] at hp
    cases hfilter : skipped.filter (poolOf? g · = some p) with
    | nil =>
      have hnone : skipped.countP (poolOf? g · = some p) = 0 := by
        rw [List.countP_eq_length_filter, hfilter, List.length_nil]
      rw [hfilter, List.append_nil] at hp
      have hcrowd := h.crowded p hp
      omega
    | cons e rest =>
      -- an edge of the pool was passed over, so the pool is full
      have he : e ∈ skipped.filter (poolOf? g · = some p) := by
        rw [hfilter]
        exact List.mem_cons_self
      obtain ⟨hmem, hpool⟩ := List.mem_filter.mp he
      obtain ⟨q, d, hbound, hfull⟩ := htakes.full e hmem
      have hsame := bound?_of_poolOf? (of_decide_eq_true hpool)
      rw [hbound] at hsame
      cases hsame
      omega

/-- An edge that no pool bounds takes no place. -/
theorem takes_unbounded (h : Placed g s) (htakes : Takes g s s.ready taken s' skipped)
    (hpool : ∀ id, taken = some id → poolOf? g id = none) : Placed g s' := by
  have hruns : ∀ p, ([] : List EdgeId).countP (poolOf? g · = some p) =
      taken.toList.countP (poolOf? g · = some p) := by
    intro p
    cases taken with
    | none => rfl
    | some id => simp [hpool id rfl]
  have hplaced := h.takes htakes hruns
  rwa [List.append_nil] at hplaced

/-- A running edge that stops gives back its place. -/
theorem stopped (h : Placed g s) {id : EdgeId} (hid : id ∈ s.running) :
    Placed g (s.stopped g id) := by
  have herase : ∀ p, (s.running.erase id).countP (poolOf? g · = some p) =
      s.running.countP (poolOf? g · = some p) - if poolOf? g id = some p then 1 else 0 := by
    intro p
    rw [List.countP_erase]
    simp [hid]
  cases hpool : poolOf? g id with
  | none =>
    rw [Schedule.stopped, release_of_none hpool]
    refine ⟨h.filed, fun p => ?_, h.bounded, h.crowded⟩
    dsimp only
    rw [herase, hpool, if_neg (by simp), Nat.sub_zero]
    exact h.counted p
  | some q =>
    have hpos : 0 < (s.loads.get q).running := by
      rw [h.counted]
      exact List.countP_pos_iff.mpr ⟨id, hid, by simpa using hpool⟩
    obtain ⟨hready, hloads⟩ := stopped_of_some (s := s) hpool
    refine ⟨fun p e he => ?_, fun p => ?_, fun p hp => ?_, fun p hp => ?_⟩
    · rw [hloads] at he
      by_cases hq : q = p
      · subst hq
        rw [if_pos rfl] at he
        exact h.filed q e (List.mem_of_mem_tail he)
      · rw [if_neg hq] at he
        exact h.filed p e he
    · rw [hloads, stopped_running, herase, hpool, ← h.counted]
      by_cases hq : q = p
      · subst hq
        rw [if_pos rfl, if_pos rfl]
      · rw [if_neg hq, if_neg fun heq => hq (Option.some.inj heq), Nat.sub_zero]
    · have hle := h.bounded p hp
      rw [hloads]
      by_cases hq : q = p
      · subst hq
        rw [if_pos rfl]
        exact Nat.le_trans (Nat.sub_le _ _) hle
      · rwa [if_neg hq]
    · rw [hloads] at hp ⊢
      rw [hready, List.countP_append]
      by_cases hq : q = p
      · subst hq
        rw [if_pos rfl] at hp ⊢
        dsimp only at hp ⊢
        obtain ⟨x, rest, hdelayed⟩ : ∃ x rest, (s.loads.get q).delayed = x :: rest := by
          cases hl : (s.loads.get q).delayed with
          | nil => rw [hl] at hp; exact absurd rfl hp
          | cons x rest => exact ⟨x, rest, rfl⟩
        have hcrowd := h.crowded q (by rw [hdelayed]; simp)
        have hx : poolOf? g x = some q := h.filed q x (by rw [hdelayed]; exact List.mem_cons_self)
        have hone : (s.loads.get q).delayed.head?.toList.countP (poolOf? g · = some q) = 1 := by
          rw [hdelayed]
          simp [hx]
        omega
      · rw [if_neg hq] at hp ⊢
        have hcrowd := h.crowded p hp
        omega

end Placed

end Rebuild.Schedule
