import LongTrader.Session.Bus

/-! The replay ring and the watermark. Publishers that reach the ring in the order
of their numbers keep it contiguous, and the watermark covers what it claims exactly
when no publisher stands between its number and its push. -/

namespace LongTrader.Session

open Interleave

/-- Sequence numbers that follow each other without a gap. -/
def Contiguous (events : List StrategyEvent) : Prop :=
  ∃ first, events.map StrategyEvent.sequence = List.range' first events.length

/-- Every number up to the watermark, capacity permitting, is in the ring. -/
def Bus.Covers (bus : Bus) : Prop :=
  ∀ seq, 0 < seq → seq ≤ bus.seq → bus.seq < seq + EVENT_RING_CAPACITY →
    ∃ event ∈ bus.ring, event.sequence = seq

/-- All events from the first on, in the order of their numbers. -/
def Unbroken (log : List StrategyEvent) : Prop :=
  log.map StrategyEvent.sequence = List.range' 1 log.length

/-- No publish is under way: everything numbered was fanned out and the ring holds
the newest of it. -/
structure Bus.Quiet (bus : Bus) : Prop where
  unbroken : Unbroken bus.sent
  counted : bus.sent.length = bus.seq
  newest : bus.ring = bus.sent.rtake EVENT_RING_CAPACITY

theorem Bus.quiet_attach : Bus.Quiet ⟨0, [], []⟩ := ⟨rfl, rfl, rfl⟩

namespace Unbroken

variable {log : List StrategyEvent}

theorem sequences_drop (unbroken : Unbroken log) (n : Nat) :
    (log.drop n).map StrategyEvent.sequence = List.range' (n + 1) (log.length - n) := by
  rw [List.map_drop, unbroken, List.drop_range', Nat.mul_one, Nat.add_comm]

theorem sequences_rtake (unbroken : Unbroken log) (n : Nat) :
    (log.rtake n).map StrategyEvent.sequence =
      List.range' (log.length - n + 1) (log.rtake n).length := by
  unfold List.rtake
  rw [unbroken.sequences_drop, List.length_drop]

theorem contiguous_rtake (unbroken : Unbroken log) (n : Nat) : Contiguous (log.rtake n) :=
  ⟨_, unbroken.sequences_rtake n⟩

/-- The newest `n` events are those with the `n` highest numbers. -/
theorem sequence_mem_rtake (unbroken : Unbroken log) (n seq : Nat) :
    (∃ event ∈ log.rtake n, event.sequence = seq) ↔ log.length < seq + n ∧ seq ≤ log.length ∧ 0 < seq := by
  have listed : (∃ event ∈ log.rtake n, event.sequence = seq) ↔
      seq ∈ (log.rtake n).map StrategyEvent.sequence := List.mem_map.symm
  have size : (log.rtake n).length = log.length - (log.length - n) := by
    unfold List.rtake
    rw [List.length_drop]
  rw [listed, unbroken.sequences_rtake, List.mem_range'_1, size]
  omega

theorem sequence_take (unbroken : Unbroken log) {n : Nat} {event : StrategyEvent}
    (early : event ∈ log.take n) : event.sequence ≤ n := by
  have listed := @List.mem_map_of_mem _ _ _ _ StrategyEvent.sequence early
  rw [List.map_take, unbroken] at listed
  obtain ⟨index, bound, same⟩ := List.mem_take_iff_getElem.mp listed
  rw [List.getElem_range'] at same
  omega

theorem append {events : List StrategyEvent} (unbroken : Unbroken log)
    (continues : events.map StrategyEvent.sequence = List.range' (log.length + 1) events.length) :
    Unbroken (log ++ events) := by
  unfold Unbroken
  rw [List.map_append, unbroken, continues, List.length_append, Nat.add_comm log.length 1,
    List.range'_append_1]

end Unbroken

section Pools

variable {ι : Type} [DecidableEq ι] {manager : SessionManager} {plane : Plane} {calls : ι → Call}
  {history : List (Entry sig ι)} {config : Config machine ι Outcome} {sid : String}
  {view : Act sig → Option StrategyEvent}

/-- Publishers that pass a stage in the order of their numbers leave an unbroken log
there; those still to pass it are the ones that wait. -/
theorem Stages.unbroken (stages : Stages (numbered sid) (sequenceOf view))
    (run : Run (pool manager plane calls) history config) (quiet : (plane.bus sid).Quiet)
    (room : (plane.bus sid).seq + (shown (numbered sid) history).length < u64Size)
    (turns : InTurn (numbered sid) (sequenceOf view) history) :
    Unbroken ((plane.bus sid).sent ++ shown view history) ∧
      (shown (numbered sid) history).length =
        (shown view history).length + (queue (numbered sid) (sequenceOf view) history).length := by
  obtain ⟨numbers, _⟩ := execution_numbers (pool_execution run) room
  obtain ⟨waiting, size, total⟩ := turns.shown_append_waiting stages.apart (stages.paced run)
  rw [shown_sequenceOf] at total
  have lengths : (shown (numbered sid) history).length =
      (shown view history).length + waiting.length := by
    rw [total, List.length_append, List.length_map]
  refine ⟨quiet.unbroken.append ?_, by rw [lengths, size]⟩
  rw [lengths, ← List.range'_append_1, total] at numbers
  rw [quiet.counted]
  exact (List.append_inj numbers (by simp)).1

/-- The ring holds the newest of all that was ever pushed. -/
theorem ring_holds_newest (run : Run (pool manager plane calls) history config)
    (quiet : (plane.bus sid).Quiet) :
    (Plane.bus config.state sid).ring =
      ((plane.bus sid).sent ++ shown (pushed sid) history).rtake EVENT_RING_CAPACITY := by
  rw [execution_bus (pool_execution run)]
  exact Bus.along_ring quiet.newest

/-- In every state of a run whose publishers reach the ring in the order of their
numbers, the ring is contiguous, and the watermark covers what it claims unless a
publisher stands between its number and its push. -/
theorem ring_in_turn (run : Run (pool manager plane calls) history config)
    (quiet : (plane.bus sid).Quiet)
    (room : (plane.bus sid).seq + (shown (numbered sid) history).length < u64Size)
    (turns : InTurn (numbered sid) (sequenceOf (pushed sid)) history) :
    Contiguous (Plane.bus config.state sid).ring ∧
      ((Plane.bus config.state sid).Covers ↔
        queue (numbered sid) (sequenceOf (pushed sid)) history = []) := by
  obtain ⟨unbroken, counted⟩ := (numbering_before_push sid).unbroken run quiet room turns
  obtain ⟨_, counter⟩ := execution_numbers (pool_execution run) room
  have ring := ring_holds_newest run quiet
  have size : ((plane.bus sid).sent ++ shown (pushed sid) history).length =
      (plane.bus sid).seq + (shown (pushed sid) history).length := by
    rw [List.length_append, quiet.counted]
  rw [ring]
  refine ⟨unbroken.contiguous_rtake _, ?_⟩
  unfold Bus.Covers
  simp only [ring, counter, unbroken.sequence_mem_rtake, size]
  constructor
  · intro covers
    by_contra waits
    have waiting := List.length_pos_of_ne_nil waits
    have newest := covers ((plane.bus sid).seq + (shown (numbered sid) history).length)
      (by omega) (by omega) (by simp [EVENT_RING_CAPACITY])
    omega
  · intro nobody seq positive known near
    rw [nobody, List.length_nil, Nat.add_zero] at counted
    omega

end Pools

/-- Two publishers of session `s1`. -/
def twoPublishers : Bool → Call
  | _ => .publish "s1" ⟨none, none, ""⟩

/-- The first publisher is done before the second takes its number. -/
theorem ring_in_turn_two :
    ∃ history config,
      Run (pool mockManager (Plane.single (.inState .active [])) twoPublishers) history config ∧
      (Plane.bus config.state "s1").ring.map StrategyEvent.sequence = [1, 2] ∧
      Contiguous (Plane.bus config.state "s1").ring ∧ (Plane.bus config.state "s1").Covers := by
  obtain ⟨history, config, run, ring, numbers, turns, nobody⟩ : ∃ history config,
      Run (pool mockManager (Plane.single (.inState .active [])) twoPublishers) history config ∧
      (Plane.bus config.state "s1").ring.map StrategyEvent.sequence = [1, 2] ∧
      (shown (numbered "s1") history).length = 2 ∧
      takesTurns (numbered "s1") (sequenceOf (pushed "s1")) [] history = true ∧
      queue (numbered "s1") (sequenceOf (pushed "s1")) history = [] :=
    Run.exists_of_replay
      (List.flatten [List.replicate 4 (true, .none), List.replicate 4 (false, .none)]) (by decide +kernel)
  have quiet : ((Plane.single (.inState .active [])).bus "s1").Quiet := Bus.quiet_attach
  have room : ((Plane.single (.inState .active [])).bus "s1").seq +
      (shown (numbered "s1") history).length < u64Size := by
    rw [numbers]
    decide
  have result := ring_in_turn run quiet room (.of_takesTurns turns)
  exact ⟨history, config, run, ring, result.1, result.2.mpr nobody⟩

/-- The second publisher overtakes the first on its way to the ring: the watermark
covers an event that is not there, and the ring ends out of order. -/
theorem publisher_overtakes :
    (∃ history config,
      Run (pool mockManager (Plane.single (.inState .active [])) twoPublishers) history config ∧
      ¬ (Plane.bus config.state "s1").Covers) ∧
    ∃ history config,
      Run (pool mockManager (Plane.single (.inState .active [])) twoPublishers) history config ∧
      ¬ Contiguous (Plane.bus config.state "s1").ring := by
  constructor
  · obtain ⟨history, config, run, watermark, ring⟩ : ∃ history config,
        Run (pool mockManager (Plane.single (.inState .active [])) twoPublishers) history config ∧
        (Plane.bus config.state "s1").seq = 2 ∧
        (Plane.bus config.state "s1").ring.map StrategyEvent.sequence = [2] :=
      Run.exists_of_replay ((true, .none) :: List.replicate 3 (false, .none)) (by decide +kernel)
    refine ⟨history, config, run, ?_⟩
    intro covers
    obtain ⟨event, member, first⟩ := covers 1 (by decide) (by omega) (by rw [watermark]; decide)
    have listed := @List.mem_map_of_mem _ _ _ _ StrategyEvent.sequence member
    rw [ring, first] at listed
    simp at listed
  · obtain ⟨history, config, run, ring⟩ : ∃ history config,
        Run (pool mockManager (Plane.single (.inState .active [])) twoPublishers) history config ∧
        (Plane.bus config.state "s1").ring.map StrategyEvent.sequence = [2, 1] :=
      Run.exists_of_replay
        (List.flatten [[(true, .none)], List.replicate 4 (false, .none), List.replicate 2 (true, .none)])
        (by decide +kernel)
    refine ⟨history, config, run, ?_⟩
    rintro ⟨first, contiguous⟩
    have size : (Plane.bus config.state "s1").ring.length = 2 := by
      rw [← List.length_map StrategyEvent.sequence, ring]
      rfl
    rw [ring, size] at contiguous
    simp [List.range'] at contiguous
    omega

end LongTrader.Session
