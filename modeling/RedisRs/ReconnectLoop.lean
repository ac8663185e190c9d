import RedisRs.CoreConnection

/-!
# Repairing connections in the background
-/

namespace RedisRs.AsyncCluster

open Run

variable {C : Type}

def markReconnecting (connections : ConnectionMap C) (addr : NodeAddress) : ConnectionMap C :=
  match connections.lookup addr with
  | some (.connected conn) => connections.insert addr (.reconnecting conn)
  | some _ => connections
  | none => connections.insert addr .connecting

inductive LoopPhase (C : Type)
  | start
  | attempt (attempts : Nat)
  | leave
  | connect (attempts : Nat) (prev : Option C)
  | install (conn : C)
  | ended

structure ReconnectLoop (C : Type) where
  addr : NodeAddress
  phase : LoopPhase C
  marked : Option Nat

structure Repair (C : Type) where
  core : Core C
  loops : List (ReconnectLoop C)
  clock : Nat
  since : NodeAddress → Nat

inductive RepairStep
  | spawn (addr : NodeAddress)
  | loop (i : Nat)
  | refreshSlots
  | connectCheckAndAdd (addr : NodeAddress)

variable [AsyncConnectionLike C] (env : CoreEnv C) (maxConnectionAttempts : Option {n : Nat // 0 < n})

def usedUp (attempts : Nat) : Bool := maxConnectionAttempts.any fun max => max.val < attempts

def reconnectLoop (addr : NodeAddress) (core : Core C) : LoopPhase C → Option (Bool × LoopPhase C × Core C)
  | .start =>
    match core.connections.lookup addr with
    | some (.reconnecting _) | some .connecting => some (false, .ended, core)
    | _ => some (false, .attempt 0, { core with connections := markReconnecting core.connections addr })
  | .attempt attempts =>
    if usedUp maxConnectionAttempts (attempts + 1) then
      some (false, .ended, { core with connections := core.connections.erase addr })
    else match core.connections.lookup addr with
    | some (.connected _) => some (false, .ended, core)
    | entry =>
      if addr ∈ core.slots.addressesForAllNodes then
        some (false, .connect (attempts + 1) (entry.bind ConnState.connectedOrReconnecting), core)
      else some (false, .leave, core)
  | .leave => some (false, .ended, { core with connections := core.connections.erase addr })
  | .connect attempts prev =>
    let (conn, n) := getOrCreateConn env addr prev (core.attempts addr)
    let core := { core with attempts := Function.update core.attempts addr n }
    match conn with
    | .ok conn => some (false, .install conn, core)
    | .error _ => some (false, .attempt attempts, core)
  | .install conn =>
    match core.connections.lookup addr with
    | some (.connected _) => some (false, .ended, core)
    | _ => some (true, .ended, { core with connections := core.connections.insert addr (.connected conn) })
  | .ended => none

namespace Repair

def start (core : Core C) : Repair C := ⟨core, [], 0, fun _ => 0⟩

def next (s : Repair C) (core : Core C) (loops : List (ReconnectLoop C)) : Repair C where
  core := core
  loops := loops
  clock := s.clock + 1
  since addr := if (s.core.connectedTo addr).isSome then s.since addr else s.clock + 1

def step (s : Repair C) : RepairStep → Option (Bool × Repair C)
  | .spawn addr => some (false, s.next s.core (s.loops ++ [⟨addr, .start, none⟩]))
  | .loop i => do
    let loop ← s.loops[i]?
    let (installed, phase, core) ← reconnectLoop env maxConnectionAttempts loop.addr s.core loop.phase
    let marked := match loop.phase, phase with
      | .start, .attempt _ => some (s.clock + 1)
      | _, _ => loop.marked
    return (installed, s.next core (s.loops.set i ⟨loop.addr, phase, marked⟩))
  | .refreshSlots => some (false, s.next (s.core.refreshSlots env).2 s.loops)
  | .connectCheckAndAdd addr => some (false, s.next (s.core.connectCheckAndAdd env addr).2 s.loops)

end Repair

/-- The next step removes the entry. -/
def Removes : LoopPhase C → Prop
  | .attempt attempts => usedUp maxConnectionAttempts (attempts + 1) = true
  | .leave => True
  | _ => False

section Step

variable {addr : NodeAddress} {core core' : Core C} {phase phase' : LoopPhase C} {installed : Bool}

omit [AsyncConnectionLike C] in
theorem connectedTo_erase (core : Core C) (addr : NodeAddress) :
    Core.connectedTo { core with connections := core.connections.erase addr } addr = none := by
  rw [Core.connectedTo, AList.lookup_erase]
  rfl

omit [AsyncConnectionLike C] in
theorem connectedTo_markReconnecting (core : Core C) (addr : NodeAddress) :
    Core.connectedTo { core with connections := markReconnecting core.connections addr } addr = none := by
  rw [Core.connectedTo, markReconnecting]
  cases hent : core.connections.lookup addr with
  | none => simp [ConnState.connected?]
  | some state => cases state <;> simp [ConnState.connected?, hent]

theorem reconnectLoop_start (h : reconnectLoop env maxConnectionAttempts addr core .start =
    some (installed, phase', core')) :
    phase' = .ended ∨ phase' = .attempt 0 ∧ core'.connectedTo addr = none := by
  rw [reconnectLoop] at h
  split at h
  · cases h
    exact .inl rfl
  · cases h
    exact .inl rfl
  · cases h
    exact .inr ⟨rfl, connectedTo_markReconnecting core addr⟩

theorem reconnectLoop_ne_start
    (h : reconnectLoop env maxConnectionAttempts addr core phase = some (installed, phase', core')) :
    phase' ≠ .start := by
  rintro rfl
  revert h
  fun_cases reconnectLoop env maxConnectionAttempts addr core phase <;> intro h <;> cases h

theorem reconnectLoop_removes (hrem : Removes maxConnectionAttempts phase)
    (h : reconnectLoop env maxConnectionAttempts addr core phase = some (installed, phase', core')) :
    core'.connectedTo addr = none := by
  cases phase with
  | attempt attempts =>
    have husedUp : usedUp maxConnectionAttempts (attempts + 1) = true := hrem
    rw [reconnectLoop, if_pos husedUp] at h
    cases h
    exact connectedTo_erase core addr
  | leave =>
    cases h
    exact connectedTo_erase core addr
  | _ => exact absurd hrem id

theorem reconnectLoop_keeps (hstart : phase ≠ .start) (hrem : ¬ Removes maxConnectionAttempts phase)
    (h : reconnectLoop env maxConnectionAttempts addr core phase = some (installed, phase', core')) {conn : C}
    (hconn : core.connectedTo addr = some conn) : core'.connectedTo addr = some conn := by
  have hent := Core.connectedTo_eq_some.1 hconn
  cases phase with
  | start => exact absurd rfl hstart
  | attempt attempts =>
    have hleft : ¬ usedUp maxConnectionAttempts (attempts + 1) = true := hrem
    simp only [reconnectLoop, if_neg hleft, hent] at h
    cases h
    exact hconn
  | leave => exact absurd trivial hrem
  | connect attempts prev =>
    rw [reconnectLoop] at h
    rcases hcreate : getOrCreateConn env addr prev (core.attempts addr) with ⟨_ | conn', n⟩
    · rw [hcreate] at h
      cases h
      exact hconn
    · rw [hcreate] at h
      cases h
      exact hconn
  | install conn' =>
    simp only [reconnectLoop, hent] at h
    cases h
    exact hconn
  | ended => cases h

end Step

namespace Repair

/-- A loop that has marked its entry finds a connection only if it is newer. -/
structure Known (s : Repair C) (loop : ReconnectLoop C) : Prop where
  start : loop.phase = .start → loop.marked = none
  unmarked : loop.marked = none → loop.phase = .start ∨ loop.phase = .ended
  le_clock : ∀ m ∈ loop.marked, m ≤ s.clock
  newer : ∀ m ∈ loop.marked, (s.core.connectedTo loop.addr).isSome → m < s.since loop.addr

/-- Of each loop it is known what it has seen. -/
def Inv (s : Repair C) : Prop := ∀ loop ∈ s.loops, Known s loop

section Inv

variable {s s' : Repair C} {core : Core C} {loops : List (ReconnectLoop C)} {loop : ReconnectLoop C}

omit [AsyncConnectionLike C] in
theorem Known.next (h : Known s loop) (core : Core C) (loops : List (ReconnectLoop C)) :
    Known (s.next core loops) loop := by
  refine ⟨h.start, h.unmarked, fun m hm => Nat.le_succ_of_le (h.le_clock m hm), fun m hm _ => ?_⟩
  show m < if (s.core.connectedTo loop.addr).isSome then s.since loop.addr else s.clock + 1
  split_ifs with hbef
  · exact h.newer m hm hbef
  · exact Nat.lt_succ_of_le (h.le_clock m hm)

variable {env maxConnectionAttempts}

omit [AsyncConnectionLike C] in
theorem Inv.next (h : Inv s) (hloops : ∀ loop ∈ loops, loop ∈ s.loops ∨ Known (s.next core loops) loop) :
    Inv (s.next core loops) := by
  intro loop hloop
  rcases hloops loop hloop with hold | hknown
  · exact (h loop hold).next core loops
  · exact hknown

theorem step_loop {i : Nat} {installed : Bool} (h : step env maxConnectionAttempts s (.loop i) = some (installed, s')) :
    ∃ loop phase core marked, s.loops[i]? = some loop ∧
      reconnectLoop env maxConnectionAttempts loop.addr s.core loop.phase = some (installed, phase, core) ∧
      s' = s.next core (s.loops.set i ⟨loop.addr, phase, marked⟩) ∧
      ((loop.phase = .start ∧ phase = .attempt 0 ∧ marked = some (s.clock + 1) ∧ core.connectedTo loop.addr = none) ∨
        (loop.phase = .start ∧ phase = .ended ∧ marked = loop.marked) ∨
        loop.phase ≠ .start ∧ marked = loop.marked) := by
  simp only [step, Option.bind_eq_bind, Option.bind_eq_some_iff] at h
  obtain ⟨loop, hloop, ⟨installed', phase, core⟩, hstep, heq⟩ := h
  cases heq
  refine ⟨loop, phase, core, _, hloop, hstep, rfl, ?_⟩
  cases hphase : loop.phase with
  | start =>
    rw [hphase] at hstep
    rcases reconnectLoop_start env maxConnectionAttempts hstep with rfl | ⟨rfl, hconn⟩
    · exact .inr (.inl ⟨rfl, rfl, rfl⟩)
    · exact .inl ⟨rfl, rfl, rfl, hconn⟩
  | _ => exact .inr (.inr ⟨nofun, rfl⟩)

theorem Inv.step {a : RepairStep} {installed : Bool} (h : Inv s)
    (hstep : Repair.step env maxConnectionAttempts s a = some (installed, s')) : Inv s' := by
  cases a with
  | spawn addr =>
    cases hstep
    refine h.next fun loop hloop => ?_
    rcases List.mem_append.1 hloop with hold | hnew
    · exact .inl hold
    · rw [List.mem_singleton.1 hnew]
      exact .inr ⟨fun _ => rfl, fun _ => .inl rfl, nofun, nofun⟩
  | loop i =>
    obtain ⟨loop, phase, core, marked, hloop, hrec, rfl, hmarked⟩ := step_loop hstep
    refine h.next fun loop' hloop' => ?_
    rcases List.mem_or_eq_of_mem_set hloop' with hold | rfl
    · exact .inl hold
    · have hknown := (h loop (List.mem_of_getElem? hloop)).next core (s.loops.set i ⟨loop.addr, phase, marked⟩)
      have hphase : ∀ hstart : phase = .start, marked = none := fun hstart =>
        absurd hstart (reconnectLoop_ne_start env maxConnectionAttempts hrec)
      refine .inr ?_
      rcases hmarked with ⟨-, rfl, rfl, hconn⟩ | ⟨-, rfl, rfl⟩ | ⟨hstart, rfl⟩
      · refine ⟨hphase, nofun, fun m hm => ?_, fun m hm hsome => ?_⟩
        · cases hm
          exact le_rfl
        · rw [show (s.next core _).core.connectedTo loop.addr = none from hconn] at hsome
          cases hsome
      · exact ⟨hphase, fun _ => .inr rfl, hknown.le_clock, hknown.newer⟩
      · refine ⟨hphase, fun hnone => ?_, hknown.le_clock, hknown.newer⟩
        -- a loop without a mark has no such step
        have hended := (hknown.unmarked hnone).resolve_left hstart
        rw [hended] at hrec
        cases hrec
  | refreshSlots =>
    cases hstep
    exact h.next fun loop hloop => .inl hloop
  | connectCheckAndAdd addr =>
    cases hstep
    exact h.next fun loop hloop => .inl hloop

end Inv

/-- A loop removes or overwrites a connection of the topology made after the loop has marked the entry. -/
def DropsConnection (s : Repair C) (a : RepairStep) (s' : Repair C) : Prop :=
  ∃ i loop conn, a = .loop i ∧ s.loops[i]? = some loop ∧ s.core.connectedTo loop.addr = some conn ∧
    (∃ m ∈ loop.marked, m < s.since loop.addr) ∧ loop.addr ∈ s.core.slots.addressesForAllNodes ∧
    s'.core.connectedTo loop.addr ≠ some conn

/-- A loop comes to remove the entry of a node of the topology that is connected. -/
def RemovesConnected (s : Repair C) (a : RepairStep) : Prop :=
  ∃ i loop conn, a = .loop i ∧ s.loops[i]? = some loop ∧ s.core.connectedTo loop.addr = some conn ∧
    loop.addr ∈ s.core.slots.addressesForAllNodes ∧ Removes maxConnectionAttempts loop.phase

variable {env maxConnectionAttempts} in
theorem dropsConnection_iff {s s' : Repair C} {a : RepairStep} {installed : Bool} (h : Inv s)
    (hstep : step env maxConnectionAttempts s a = some (installed, s')) :
    DropsConnection s a s' ↔ RemovesConnected maxConnectionAttempts s a := by
  constructor
  · rintro ⟨i, loop, conn, rfl, hloop, hconn, ⟨m, hm, -⟩, htop, hdrop⟩
    refine ⟨i, loop, conn, rfl, hloop, hconn, htop, ?_⟩
    obtain ⟨loop', phase, core, marked, hloop', hrec, rfl, -⟩ := step_loop hstep
    cases hloop.symm.trans hloop'
    have hstart : loop.phase ≠ .start := by
      intro hstart
      rw [(h loop (List.mem_of_getElem? hloop)).start hstart] at hm
      cases hm
    by_contra hrem
    exact hdrop (reconnectLoop_keeps env maxConnectionAttempts hstart hrem hrec hconn)
  · rintro ⟨i, loop, conn, rfl, hloop, hconn, htop, hrem⟩
    obtain ⟨loop', phase, core, marked, hloop', hrec, rfl, -⟩ := step_loop hstep
    cases hloop.symm.trans hloop'
    have hknown := h loop (List.mem_of_getElem? hloop)
    refine ⟨i, loop, conn, rfl, hloop, hconn, ?_, htop, ?_⟩
    · cases hmarked : loop.marked with
      | none =>
        rcases hknown.unmarked hmarked with hphase | hphase <;> rw [hphase] at hrem <;> exact absurd hrem id
      | some m => exact ⟨m, rfl, hknown.newer m hmarked (Option.isSome_of_eq_some hconn)⟩
    · rw [show (s.next core _).core.connectedTo loop.addr = none from
        reconnectLoop_removes env maxConnectionAttempts hrem hrec]
      exact Option.some_ne_none conn |>.symm

omit [AsyncConnectionLike C] in
theorem inv_start (core : Core C) : Inv (start core) := fun _ hloop => absurd hloop List.not_mem_nil

/-- Over every run, no loop drops a connection made since its mark exactly when none comes to remove the entry while it is
connected and its node is in the topology. -/
theorem drops_no_connection_iff (core : Core C) (steps : List RepairStep) :
    Along (step env maxConnectionAttempts) (fun s a _ s' => ¬ DropsConnection s a s') (start core) steps ↔
      Along (step env maxConnectionAttempts) (fun s a _ _ => ¬ RemovesConnected maxConnectionAttempts s a) (start core)
        steps := by
  refine along_iff (I := Inv) (fun s a installed s' h hstep => ⟨?_, fun _ => h.step hstep⟩) (inv_start core) steps
  exact not_congr (dropsConnection_iff h hstep)

def secondAttemptEnv : CoreEnv Core.Steady :=
  { Core.refusedEnv with connect := fun _ n => if n = 0 then .error closedConnectionError else .ok ⟨.ok .okay⟩ }

def returningNode : Core Core.Steady where
  connections := (∅ : ConnectionMap Core.Steady).insert ⟨"b", 7000⟩
    (.connected ⟨.ok (.array [.array [.int 0, .int 16383, .array [.bulkString (bytesOf "a"), .int 7000]]])⟩)
  slots := .new
  attempts _ := 1
  tick := 0

theorem drops_connection_made_meanwhile :
    ¬ Along (step secondAttemptEnv (some ⟨1, by decide⟩)) (fun s a _ s' => ¬ DropsConnection s a s')
        (start (Core.oneNode (.error closedConnectionError)))
        [.spawn ⟨"a", 7000⟩, .loop 0, .loop 0, .loop 0, .connectCheckAndAdd ⟨"a", 7000⟩, .loop 0] ∧
    ¬ Along (step secondAttemptEnv none) (fun s a _ s' => ¬ DropsConnection s a s') (start returningNode)
        [.spawn ⟨"a", 7000⟩, .loop 0, .loop 0, .refreshSlots, .loop 0] := by
  constructor
  · intro h
    have hlast := ((((((h _ _ rfl).2 _ _ rfl).2 _ _ rfl).2 _ _ rfl).2 _ _ rfl).2 _ _ rfl).1
    exact hlast ⟨0, ⟨⟨"a", 7000⟩, .attempt 1, some 2⟩, ⟨.ok .okay⟩, rfl, rfl, rfl, ⟨2, rfl, by decide⟩, by decide,
      nofun⟩
  · intro h
    have hlast := (((((h _ _ rfl).2 _ _ rfl).2 _ _ rfl).2 _ _ rfl).2 _ _ rfl).1
    exact hlast ⟨0, ⟨⟨"a", 7000⟩, .leave, some 2⟩, ⟨.ok .okay⟩, rfl, rfl, rfl, ⟨2, rfl, by decide⟩, by decide,
      nofun⟩

end Repair

end RedisRs.AsyncCluster
