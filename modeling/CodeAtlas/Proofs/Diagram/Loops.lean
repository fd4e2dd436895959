import CodeAtlas.Proofs.Diagram.Restart

/-! Which loops of a diagram can still run. No change of the loops leaves two of them alive, and
whoever moves a layout sees to it that one is. -/
namespace CodeAtlas

namespace Loops

variable {l : Loops} {loop n : Nat}

/-- Whether the loop at a position can still run. -/
def isLive (l : Loops) (n : Nat) : Bool := l.states[n]?.any LoopState.live

def Single (l : Loops) : Prop := ∀ n, l.isLive n = true → l.current = some n

theorem lt_of_isLive (h : l.isLive n = true) : n < l.states.length := by
  by_contra hge
  rw [isLive, List.getElem?_eq_none (Nat.le_of_not_lt hge)] at h
  cases h

theorem running_eq (h : l.current = some n) : l.running = l.isLive n := by
  rw [running, currentState?, h, Option.bind_some, isLive]

theorem mem_live : n ∈ l.live ↔ l.isLive n = true := by
  rw [live, List.mem_filter, List.mem_range]
  exact ⟨And.right, fun h => ⟨lt_of_isLive h, h⟩⟩

theorem Single.isLive_of_not_running (h : l.Single) (hrunning : l.running = false) (n : Nat) :
    l.isLive n = false := by
  by_contra hlive
  rw [Bool.not_eq_false] at hlive
  rw [running_eq (h n hlive), hlive] at hrunning
  cases hrunning

theorem single_of_isLive (h : ∀ n, l.isLive n = false) : l.Single := fun n hn => by
  rw [h n] at hn
  cases hn

theorem Single.live_eq (h : l.Single) : l.live = if l.running then l.current.toList else [] := by
  cases hrunning : l.running with
  | false =>
    refine List.eq_nil_iff_forall_not_mem.2 fun n hn => ?_
    rw [mem_live, h.isLive_of_not_running hrunning] at hn
    cases hn
  | true =>
    cases hcurrent : l.current with
    | none =>
      rw [running, currentState?, hcurrent] at hrunning
      cases hrunning
    | some n =>
      have hnodup : l.live.Nodup := List.nodup_range.filter _
      refine List.perm_singleton.1
        ((List.perm_ext_iff_of_nodup hnodup (List.nodup_singleton n)).2 fun m => ?_)
      rw [mem_live, List.mem_singleton]
      constructor
      · intro hm
        exact Option.some.inj ((h m hm).symm.trans hcurrent)
      · rintro rfl
        rwa [← running_eq hcurrent]

theorem single_nil : Single {} := fun n hn => by cases hn

theorem running_start : l.start.running = true := by
  unfold start
  split
  · assumption
  · simp [running, currentState?, LoopState.live]

theorem current_ne_none_of_running (h : l.running = true) : l.current ≠ none := by
  intro hcurrent
  rw [running, currentState?, hcurrent] at h
  cases h

theorem single_start (h : l.Single) : l.start.Single := by
  unfold start
  split
  · exact h
  · next hrunning =>
    intro n hn
    have hlt := lt_of_isLive hn
    rw [List.length_append, List.length_singleton] at hlt
    rcases Nat.lt_or_ge n l.states.length with hold | hnew
    · rw [isLive, List.getElem?_append_left hold] at hn
      exact absurd hn (by
        simpa [isLive] using h.isLive_of_not_running (Bool.not_eq_true _ ▸ hrunning) n)
    · exact congrArg some (by omega)

private theorem isLive_stop (h : l.Single) (n : Nat) : l.stop.isLive n = false := by
  unfold stop
  split
  · next m hm =>
    split
    · next hrunning =>
      by_contra hlive
      rw [Bool.not_eq_false, isLive] at hlive
      by_cases hmn : m = n
      · subst hmn
        rw [running_eq hm] at hrunning
        rw [Diagram.any_live_set hrunning] at hlive
        cases hlive
      · rw [List.getElem?_set_ne hmn] at hlive
        exact hmn (Option.some.inj (hm.symm.trans (h n hlive)))
    · next hrunning => exact h.isLive_of_not_running (Bool.not_eq_true _ ▸ hrunning) n
  · next hcurrent =>
    refine h.isLive_of_not_running ?_ n
    rw [running, currentState?, hcurrent]
    rfl

theorem single_stop (h : l.Single) : l.stop.Single := single_of_isLive (isLive_stop h)

theorem single_restart (h : l.Single) : l.restart.Single := by
  unfold restart
  split
  · exact single_start (single_stop h)
  · exact single_stop h

private theorem single_resume (h : l.Single) : l.resume.Single := by
  unfold resume
  split
  · next hended =>
    have hrunning : l.running = false := by
      rw [Bool.and_eq_true, Bool.not_eq_true'] at hended
      exact hended.2
    exact single_start (single_of_isLive (h.isLive_of_not_running hrunning))
  · exact h

theorem running_resume (h : l.current ≠ none) : l.resume.running = true := by
  unfold resume
  split
  · exact running_start
  · next hnot =>
    cases hrunning : l.running with
    | true => rfl
    | false => simp [hrunning, Option.isSome_iff_ne_none.2 h] at hnot

def put (l : Loops) (loop : Nat) (state : LoopState) : Loops :=
  { l with states := l.states.set loop state }

private theorem single_put (h : l.Single) (hlive : l.isLive loop = true) (state : LoopState) :
    (l.put loop state).Single := by
  intro n hn
  by_cases hne : loop = n
  · subst hne
    exact h loop hlive
  · rw [isLive, put, List.getElem?_set_ne hne] at hn
    exact h n hn

private theorem running_put (hcurrent : l.current = some loop) (hlive : l.isLive loop = true)
    (state : LoopState) : (l.put loop state).running = state.live :=
  (running_eq (l := l.put loop state) hcurrent).trans (Diagram.any_live_set hlive state)

end Loops

namespace Diagram

variable {α γ : Type} {d e : Diagram α γ} {clean : Prop}

/-- The layout of a diagram is in good hands: one loop at most can move it, and while it has units
and is not at rest, one does, unless a tick has failed. -/
structure Driven (clean : Prop) (d : Diagram α γ) : Prop where
  single : d.loops.Single
  looped : d.source ≠ [] → d.loops.current ≠ none
  running : clean → d.source ≠ [] → d.phase ≠ .settled → d.running = true

theorem driven_start (h : d.loops.Single) : Driven clean d.start where
  single := Loops.single_start h
  looped := fun _ => Loops.current_ne_none_of_running Loops.running_start
  running := fun _ _ _ => Loops.running_start

theorem driven_setUnits [Scalar α] (h : d.loops.Single) (units : List SourceUnit) :
    Driven clean (d.setUnits units).start :=
  driven_start (d := d.setUnits units) (Loops.single_restart h)

theorem driven_setViewMode [Scalar α] (h : d.loops.Single) (mode : ViewMode) :
    Driven clean (d.setViewMode mode).start := by
  refine driven_start ?_
  unfold setViewMode
  split
  · exact h
  · exact Loops.single_restart h

theorem Driven.of_eq (h : Driven clean d) (hloops : e.loops = d.loops)
    (hsource : e.source = d.source) (hphase : e.phase = d.phase) : Driven clean e where
  single := hloops ▸ h.single
  looped := fun hunits => hloops ▸ h.looped (hsource ▸ hunits)
  running := fun hclean hunits hrest => by
    rw [Diagram.running, hloops]
    exact h.running hclean (hsource ▸ hunits) (hphase ▸ hrest)

theorem Driven.withUnit (h : Driven clean d) {id : String} {g : Nat → Diagram α γ}
    (hg : ∀ i, Driven clean (g i)) : Driven clean (d.withUnit id g).1 := by
  unfold Diagram.withUnit
  cases d.indexOf? id with
  | some i => exact hg i
  | none => exact h

variable [Scalar α]

theorem Driven.dragStart (h : Driven clean d) (id : String) : Driven clean (d.dragStart id).1 := by
  refine h.withUnit fun i => ⟨Loops.single_resume h.single, fun hunits => ?_, fun _ hunits _ => ?_⟩
  · exact Loops.current_ne_none_of_running (Loops.running_resume (h.looped hunits))
  · exact Loops.running_resume (h.looped hunits)

variable [Generator γ]

theorem wake_of_not_live {loop : Nat} (h : d.loops.isLive loop = false) :
    d.wake loop = (d, none) := by
  rw [wake, if_neg]
  exact Bool.eq_false_iff.1 h

def loopAfter : Except DiagramError Phase → LoopState
  | .ok .settled => .finished
  | .ok _ => .sleeping
  | .error _ => .finished

theorem wake_of_live {loop : Nat} (h : d.loops.isLive loop = true)
    {result : Except DiagramError Phase} (hstep : d.step = (e, result)) :
    (d.wake loop).1 = { e with loops := d.loops.put loop (loopAfter result) } ∧
      ∀ fault, (d.wake loop).2 = some fault ↔ result = .error fault := by
  have hloops : e.loops = d.loops := by
    rw [← step_loops (d := d), hstep]
  rw [Loops.isLive] at h
  rw [wake, if_pos h, hstep, ← hloops]
  cases result with
  | error fault => exact ⟨rfl, fun _ => by simp⟩
  | ok phase => cases phase <;> exact ⟨rfl, fun _ => by simp⟩

theorem Driven.wake (h : Driven clean d) (loop : Nat)
    (hclean : clean → (d.wake loop).2 ≠ some .divisionByZero) :
    Driven clean (d.wake loop).1 := by
  cases hlive : d.loops.isLive loop with
  | false =>
    rw [wake_of_not_live hlive]
    exact h
  | true =>
    -- A live loop is the current one, so what becomes of it decides whether the layout is driven.
    have hcurrent := h.single loop hlive
    have hsingle := Loops.single_put h.single hlive
    have hlooped : d.loops.current ≠ none := by simp [hcurrent]
    generalize hstep : d.step = result
    cases hstep ▸ stepped_step (d := d) with
    | settled phase =>
      rw [(wake_of_live hlive hstep).1]
      exact ⟨hsingle _, fun _ => hlooped, fun _ _ hrest => absurd phase hrest⟩
    | emptied phase units =>
      rw [(wake_of_live hlive hstep).1]
      exact ⟨hsingle _, fun _ => hlooped, fun _ _ hrest => absurd rfl hrest⟩
    | stalled phase units tick =>
      obtain ⟨hnext, hfault⟩ := wake_of_live hlive hstep
      rw [hnext]
      exact ⟨hsingle _, fun _ => hlooped, fun hc => absurd ((hfault _).2 rfl) (hclean hc)⟩
    | @ticked phase units s tick =>
      rw [(wake_of_live hlive hstep).1]
      refine ⟨hsingle _, fun _ => hlooped, fun _ _ hrest => ?_⟩
      cases hsettled : s.settled with
      | true => simp [hsettled] at hrest
      | false => exact Loops.running_put hcurrent hlive .sleeping

end Diagram

end CodeAtlas
