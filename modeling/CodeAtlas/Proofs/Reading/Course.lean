import CodeAtlas.Proofs.Project
import Mathlib.Data.List.Induction
import Mathlib.Data.List.Nodup
import Mathlib.Data.List.Perm.Subperm

/-! The course of a reading: its reads finish one after another, in any order that the limit leaves
open. What has begun and what is told depend on the number of finished reads alone, and the result
not even on that. -/
namespace CodeAtlas

namespace Reading

def begunPositions (r : Reading) : List Nat := (List.range r.selected.length).filter r.hasBegun

end Reading

/-- A reading with the positions it has begun to read, in the order in which it began, and the
percentages it has told. -/
structure Course where
  reading : Reading
  begun : List Nat
  told : List Nat

namespace Course

def start (candidates : List Candidate) (limit : Nat) : Course :=
  let reading := Reading.start candidates limit
  ⟨reading, reading.begunPositions, []⟩

/-- The read at a position finishes: the progress is told, and other reads may begin. -/
def finish (c : Course) (i : Nat) : Option Course :=
  (c.reading.finish i).map fun next =>
    ⟨next, c.begun ++ next.begunPositions.filter (!c.reading.hasBegun ·), c.told ++ [next.progress]⟩

/-- The reads at the positions finish in the order given. -/
def follow (c : Course) (order : List Nat) : Option Course := order.foldlM finish c

/-- The candidates whose texts have been asked for. -/
def asked (c : Course) : List Candidate :=
  (c.begun.filterMap (c.reading.selected[·]?)).filter (!·.isDirectory)

/-- An order in which reads can finish: each of them once, and none before it has begun. -/
structure Possible (total limit : Nat) (order : List Nat) : Prop where
  nodup : order.Nodup
  lt_total : ∀ i ∈ order, i < total
  lt_limit : ∀ k i, order[k]? = some i → i < limit + k

/-- The course when the reads at the positions have finished. -/
def after (selected : List Candidate) (limit : Nat) (order : List Nat) : Course where
  reading := ⟨selected, (List.range selected.length).map (decide <| · ∈ order), limit⟩
  begun := List.range (min selected.length (limit + order.length))
  told := (List.range order.length).map fun k => 100 * (k + 1) / selected.length

variable {candidates selected : List Candidate} {total limit : Nat} {order : List Nat}

theorem possible_concat_iff {i : Nat} : Possible total limit (order ++ [i]) ↔
    Possible total limit order ∧ i ∉ order ∧ i < total ∧ i < limit + order.length := by
  constructor
  · intro h
    have hnodup := List.nodup_append.1 h.nodup
    refine ⟨⟨hnodup.1, fun j hj => h.lt_total j (List.mem_append_left _ hj), fun k j hk => ?_⟩,
      fun hi => hnodup.2.2 i hi i (List.mem_singleton.2 rfl) rfl,
      h.lt_total i (List.mem_append_right _ (List.mem_singleton.2 rfl)),
      h.lt_limit order.length i List.getElem?_concat_length⟩
    exact h.lt_limit k j (List.getElem?_append_left (List.getElem?_eq_some_iff.1 hk).1 ▸ hk)
  · rintro ⟨h, hi, htotal, hlimit⟩
    refine ⟨List.nodup_append.2 ⟨h.nodup, List.nodup_singleton i, ?_⟩, fun j hj => ?_,
      fun k j hk => ?_⟩
    · rintro j hj _ hi' rfl
      exact hi (List.mem_singleton.1 hi' ▸ hj)
    · rcases List.mem_append.1 hj with hj | hj
      · exact h.lt_total j hj
      · exact List.mem_singleton.1 hj ▸ htotal
    · rcases Nat.lt_or_ge k order.length with hlt | hge
      · exact h.lt_limit k j (List.getElem?_append_left hlt ▸ hk)
      · rw [List.getElem?_append_right hge, List.getElem?_singleton] at hk
        split at hk
        · obtain rfl := Option.some.inj hk
          omega
        · cases hk

theorem doneCount_after (h : Possible selected.length limit order) :
    (after selected limit order).reading.doneCount = order.length := by
  have hperm : ((List.range selected.length).filter (decide <| · ∈ order)).Perm order := by
    refine (List.perm_ext_iff_of_nodup (List.nodup_range.filter _) h.nodup).2 fun i => ?_
    rw [List.mem_filter, List.mem_range, decide_eq_true_eq]
    exact ⟨And.right, fun hi => ⟨h.lt_total i hi, hi⟩⟩
  rw [← hperm.length_eq, ← List.countP_eq_length_filter, Reading.doneCount, after,
    List.count_eq_countP, List.countP_map]
  exact List.countP_congr fun i _ => by simp

private theorem filter_lt_range (m n : Nat) :
    (List.range n).filter (· < m) = List.range (min n m) := by
  induction n with
  | zero => simp
  | succ n ih =>
    rw [List.range_succ, List.filter_append, ih]
    rcases Nat.lt_or_ge n m with hlt | hge
    · rw [List.filter_cons_of_pos (by simpa using hlt), List.filter_nil,
        Nat.min_eq_left (by omega), Nat.min_eq_left (by omega), List.range_succ]
    · rw [List.filter_cons_of_neg (by simpa using hge), List.filter_nil, List.append_nil,
        Nat.min_eq_right (by omega), Nat.min_eq_right (by omega)]

private theorem filter_not_lt_range (m n : Nat) :
    (List.range (min n m)) ++ (List.range (min n (m + 1))).filter (fun i => !decide (i < m)) =
      List.range (min n (m + 1)) := by
  have hsmall : (List.range (min n m)).filter (fun i => !decide (i < m)) = [] := by
    refine List.filter_eq_nil_iff.2 fun i hi => ?_
    have := List.mem_range.1 hi
    simp only [Bool.not_eq_true', decide_eq_false_iff_not, not_not]
    omega
  rcases Nat.lt_or_ge m n with hlt | hge
  · rw [Nat.min_eq_right (show m ≤ n by omega)] at hsmall ⊢
    rw [Nat.min_eq_right hlt, List.range_succ, List.filter_append, hsmall,
      List.filter_cons_of_pos (by simp), List.filter_nil, List.nil_append]
  · rw [Nat.min_eq_left hge] at hsmall ⊢
    rw [Nat.min_eq_left (by omega), hsmall, List.append_nil]

theorem begunPositions_after (h : Possible selected.length limit order) :
    (after selected limit order).reading.begunPositions =
      List.range (min selected.length (limit + order.length)) := by
  rw [← filter_lt_range, Reading.begunPositions]
  refine List.filter_congr fun i _ => ?_
  rw [Reading.hasBegun, doneCount_after h]
  rfl

theorem underWay_after_iff {i : Nat} (h : Possible selected.length limit order) :
    (after selected limit order).reading.underWay i = true ↔
      i ∉ order ∧ i < selected.length ∧ i < limit + order.length := by
  rw [Reading.underWay, Reading.hasBegun, doneCount_after h, Bool.and_eq_true,
    decide_eq_true_eq, beq_iff_eq]
  have hdone : (after selected limit order).reading.done[i]? = some false ↔
      i ∉ order ∧ i < selected.length := by
    rw [after, List.getElem?_map]
    by_cases hlt : i < selected.length
    · rw [List.getElem?_range hlt]
      simp [hlt]
    · rw [List.getElem?_eq_none (by simpa using hlt)]
      simp [hlt]
  rw [hdone, and_comm, and_assoc]
  rfl

private theorem done_set (total i : Nat) (order : List Nat) :
    ((List.range total).map (decide <| · ∈ order)).set i true =
      (List.range total).map (decide <| · ∈ order ++ [i]) := by
  apply List.ext_getElem
  · simp
  · intro k hk hk'
    rw [List.getElem_set]
    by_cases heq : i = k
    · simp [heq]
    · simp [heq, Ne.symm heq]

theorem finish_after {i : Nat}
    (h : Possible selected.length limit order)
    (hi : i ∉ order ∧ i < selected.length ∧ i < limit + order.length) :
    (after selected limit order).finish i = some (after selected limit (order ++ [i])) := by
  have hnext := possible_concat_iff.2 ⟨h, hi⟩
  have hreading : (after selected limit order).reading.finish i =
      some (after selected limit (order ++ [i])).reading := by
    rw [Reading.finish, if_pos ((underWay_after_iff h).2 hi)]
    simp only [after, done_set]
  have hbegun : (after selected limit order).begun ++
      (after selected limit (order ++ [i])).reading.begunPositions.filter
        (!(after selected limit order).reading.hasBegun ·) =
      (after selected limit (order ++ [i])).begun := by
    rw [begunPositions_after hnext]
    simp only [Reading.hasBegun, doneCount_after h]
    simp only [after, List.length_append, List.length_singleton, ← Nat.add_assoc]
    exact filter_not_lt_range _ _
  have htold : (after selected limit order).told ++
      [(after selected limit (order ++ [i])).reading.progress] =
      (after selected limit (order ++ [i])).told := by
    rw [Reading.progress, doneCount_after hnext]
    simp only [after, List.length_append, List.length_singleton, List.range_succ, List.map_append,
      List.map_singleton]
  rw [finish, hreading, Option.map_some, hbegun, htold]

theorem finish_after_eq_some_iff {i : Nat} {next : Course}
    (h : Possible selected.length limit order) :
    (after selected limit order).finish i = some next ↔
      Possible selected.length limit (order ++ [i]) ∧
        next = after selected limit (order ++ [i]) := by
  rw [possible_concat_iff]
  constructor
  · intro hfinish
    have hway : (after selected limit order).reading.underWay i = true := by
      rw [finish, Option.map_eq_some_iff] at hfinish
      obtain ⟨reading, hreading, -⟩ := hfinish
      exact (Option.ite_none_right_eq_some.1 hreading).1
    have hi := (underWay_after_iff h).1 hway
    rw [finish_after h hi] at hfinish
    exact ⟨⟨h, hi⟩, (Option.some.inj hfinish).symm⟩
  · rintro ⟨⟨-, hi⟩, rfl⟩
    exact finish_after h hi

theorem possible_nil : Possible total limit [] :=
  ⟨List.nodup_nil, fun i hi => absurd hi List.not_mem_nil, fun k i hk => by simp at hk⟩

theorem start_eq_after :
    start candidates limit = after (candidates.filter Candidate.isSelected) limit [] := by
  have hreading : Reading.start candidates limit =
      (after (candidates.filter Candidate.isSelected) limit []).reading := by
    have hdone : (candidates.filter Candidate.isSelected).map (fun _ => false) =
        (List.range (candidates.filter Candidate.isSelected).length).map
          (decide <| · ∈ ([] : List Nat)) := by
      apply List.ext_getElem
      · simp
      · intro k hk hk'
        simp
    rw [Reading.start, after, hdone]
  rw [start, hreading, begunPositions_after possible_nil]
  rfl

theorem follow_start_eq_some_iff {c : Course} :
    (start candidates limit).follow order = some c ↔
      Possible (candidates.filter Candidate.isSelected).length limit order ∧
        c = after (candidates.filter Candidate.isSelected) limit order := by
  -- The last position of an order finishes last, so it is the last one that is taken off.
  induction order using List.reverseRecOn generalizing c with
  | nil =>
    rw [start_eq_after]
    constructor
    · intro h
      exact ⟨possible_nil, (Option.some.inj h).symm⟩
    · rintro ⟨-, rfl⟩
      rfl
  | append_singleton order i ih =>
    have hsplit : (start candidates limit).follow (order ++ [i]) =
        ((start candidates limit).follow order).bind (·.finish i) := by
      rw [follow, List.foldlM_append]
      simp only [List.foldlM_cons, List.foldlM_nil, bind_pure]
      rfl
    rw [hsplit, Option.bind_eq_some_iff]
    constructor
    · rintro ⟨c', hc', hfinish⟩
      obtain ⟨hpossible, rfl⟩ := ih.1 hc'
      exact (finish_after_eq_some_iff hpossible).1 hfinish
    · rintro ⟨hnext, rfl⟩
      have hpossible := (possible_concat_iff.1 hnext).1
      exact ⟨_, ih.2 ⟨hpossible, rfl⟩, (finish_after_eq_some_iff hpossible).2 ⟨hnext, rfl⟩⟩

private theorem Possible.perm_range (h : Possible total limit order)
    (hlength : order.length = total) : order.Perm (List.range total) := by
  have hsub : order ⊆ List.range total := fun i hi => List.mem_range.2 (h.lt_total i hi)
  exact (List.subperm_of_subset h.nodup hsub).perm_of_length_le (by simp [hlength])

private theorem Possible.exists_next (h : Possible total limit order) (hlimit : 1 ≤ limit)
    (hlength : order.length < total) : ∃ i, Possible total limit (order ++ [i]) := by
  by_contra hnone
  have hsub : List.range (order.length + 1) ⊆ order := fun i hi => by
    by_contra hi'
    have := List.mem_range.1 hi
    exact hnone ⟨i, possible_concat_iff.2 ⟨h, hi', by omega, by omega⟩⟩
  have := (List.subperm_of_subset List.nodup_range hsub).length_le
  rw [List.length_range] at this
  omega

private theorem exists_whole_iff : (∃ order, Possible total limit order ∧ order.length = total) ↔
    0 < limit ∨ total = 0 := by
  constructor
  · rintro ⟨order, h, rfl⟩
    cases order with
    | nil => exact .inr rfl
    | cons i rest => exact .inl (Nat.zero_lt_of_lt (h.lt_limit 0 i rfl))
  · rintro (hlimit | rfl)
    · refine ⟨List.range total, ⟨List.nodup_range, fun i hi => List.mem_range.1 hi, ?_⟩,
        List.length_range⟩
      intro k i hk
      obtain ⟨-, rfl⟩ := List.getElem?_eq_some_iff.1 hk
      rw [List.getElem_range]
      omega
    · exact ⟨[], possible_nil, rfl⟩

theorem isDone_after_iff (h : Possible selected.length limit order) :
    (after selected limit order).reading.isDone = true ↔ order.length = selected.length := by
  have hcount := doneCount_after h
  have hlength : (after selected limit order).reading.done.length = selected.length := by
    simp [after]
  rw [← hcount, ← hlength, Reading.doneCount, List.count_eq_length, Reading.isDone,
    List.all_eq_true]
  exact forall₂_congr fun b _ => eq_comm

private theorem exists_result_iff (candidates : List Candidate) (limit : Nat) :
    (∃ order c, (start candidates limit).follow order = some c ∧ c.reading.result?.isSome) ↔
      Project.ends candidates limit = true := by
  rw [Project.ends, Bool.or_eq_true, decide_eq_true_eq, List.isEmpty_iff_length_eq_zero,
    ← exists_whole_iff]
  constructor
  · rintro ⟨order, c, hc, hresult⟩
    obtain ⟨hpossible, rfl⟩ := follow_start_eq_some_iff.1 hc
    obtain ⟨result, hresult⟩ := Option.isSome_iff_exists.1 hresult
    obtain ⟨hdone, -⟩ := Reading.result?_eq_some_iff.1 hresult
    exact ⟨order, hpossible, (isDone_after_iff hpossible).1 hdone⟩
  · rintro ⟨order, hpossible, hlength⟩
    refine ⟨order, _, follow_start_eq_some_iff.2 ⟨hpossible, rfl⟩, ?_⟩
    rw [Reading.result?, if_pos ((isDone_after_iff hpossible).2 hlength)]
    rfl

private theorem filterMap_range_getElem? {α : Type} (l : List α) (k : Nat) :
    (List.range k).filterMap (l[·]?) = l.take k := by
  induction k with
  | zero => rfl
  | succ k ih =>
    rw [List.range_succ, List.filterMap_append, ih, List.take_add_one]
    cases h : l[k]? <;> simp [h]

theorem asked_after : (after selected limit order).asked =
    (selected.take (limit + order.length)).filter (!·.isDirectory) := by
  rw [asked]
  simp only [after]
  rw [filterMap_range_getElem?, Nat.min_comm, ← List.take_eq_take_min]

private theorem told_after_pairwise : (after selected limit order).told.Pairwise (· ≤ ·) := by
  rw [after, List.pairwise_map]
  refine List.pairwise_lt_range.imp fun {a b} hab => Nat.div_le_div_right ?_
  omega

private theorem getLast?_told_after (hlength : order.length = selected.length)
    (hpos : 0 < order.length) : (after selected limit order).told.getLast? = some 100 := by
  obtain ⟨k, hk⟩ := Nat.exists_eq_succ_of_ne_zero (Nat.ne_of_gt hpos)
  simp only [after, ← hlength, hk, List.range_succ, List.map_append, List.map_singleton,
    List.getLast?_concat]
  rw [Nat.succ_eq_add_one, Nat.mul_div_cancel _ (Nat.succ_pos k)]

end Course

/-- Whatever the order in which reads finish, the same is told, every file is read once, and once
all is done the result is the one that the list alone determines. With a limit that is not zero
there is always a next read to finish; with a limit of zero nothing is ever done, so that there is a
result only if there is nothing to read. -/
theorem course_of_reading (candidates : List Candidate) (limit : Nat) :
    let selected := candidates.filter fun c => c.isDirectory || Language.isAnalyzable c.path
    (∀ order, ((Course.start candidates limit).follow order).isSome ↔
      Course.Possible selected.length limit order) ∧
    ((∃ order c, (Course.start candidates limit).follow order = some c ∧
      c.reading.result?.isSome) ↔ Project.ends candidates limit = true) ∧
    ∀ order c, (Course.start candidates limit).follow order = some c →
      c.reading.selected = selected ∧
      c.told = (List.range order.length).map (fun k => 100 * (k + 1) / selected.length) ∧
      c.told.Pairwise (· ≤ ·) ∧
      c.asked = (selected.take (limit + order.length)).filter (!·.isDirectory) ∧
      (order.length < selected.length → c.reading.result? = none ∧
        (1 ≤ limit → ∃ i, (c.finish i).isSome)) ∧
      (order.length = selected.length →
        order.Perm (List.range selected.length) ∧
        (0 < selected.length → c.told.getLast? = some 100) ∧
        c.asked = selected.filter (!·.isDirectory) ∧
        (∃ result, c.reading.result? = some result ∧ Reading.Settles selected result ∧
          ∀ own fallback, Project.limitOf own fallback = .ok limit →
            Project.read candidates own fallback = (c.told, result.mapError .ofEntryError))) := by
  intro selected
  refine ⟨fun order => ?_, Course.exists_result_iff candidates limit, fun order c hc => ?_⟩
  · rw [Option.isSome_iff_exists]
    simp only [Course.follow_start_eq_some_iff]
    exact ⟨fun ⟨_, hpossible, _⟩ => hpossible, fun hpossible => ⟨_, hpossible, rfl⟩⟩
  obtain ⟨hpossible, rfl⟩ := Course.follow_start_eq_some_iff.1 hc
  have hdone := Course.isDone_after_iff hpossible
  refine ⟨rfl, rfl, Course.told_after_pairwise, Course.asked_after, fun hlength => ⟨?_, ?_⟩,
    fun hlength => ⟨hpossible.perm_range hlength, fun hpos => ?_, ?_, ?_⟩⟩
  · rw [Reading.result?, if_neg]
    rw [hdone]
    exact Nat.ne_of_lt hlength
  · intro hlimit
    obtain ⟨i, hi⟩ := hpossible.exists_next hlimit hlength
    exact ⟨i, Option.isSome_iff_exists.2
      ⟨_, (Course.finish_after_eq_some_iff hpossible).2 ⟨hi, rfl⟩⟩⟩
  · exact Course.getLast?_told_after hlength (hlength ▸ hpos)
  · rw [Course.asked_after, List.take_of_length_le]
    · rfl
    · change selected.length ≤ _
      omega
  · refine ⟨Reading.collect selected, Reading.result?_eq_some_iff.2 ⟨hdone.2 hlength, rfl⟩,
      Reading.settles_collect selected, fun own fallback hown => ?_⟩
    unfold Project.read Project.progressOf
    rw [hown]
    simp only [Course.after, hlength]
    rfl

end CodeAtlas
