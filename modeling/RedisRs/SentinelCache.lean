import RedisRs.Run
import RedisRs.Sentinel

/-!
# What is in the caches of a `Sentinel`
-/

namespace RedisRs

open Function List Prog Run Sentinel

namespace SentinelEvent

/-- A node that was connected to has told its role. -/
def Answered : SentinelEvent → Prop
  | connected _ _ role => ∃ r, ((cmd "ROLE").query role : RedisResult Role) = .ok r
  | _ => True

def slotAfter (slot : Option Nat) : SentinelEvent → Option Nat
  | connected _ con role =>
    match ((cmd "ROLE").query role : RedisResult Role) with
    | .ok (.sentinel _) => some con
    | .ok _ => none
    -- the connection was stored before it was asked
    | .error _ => some con
  | _ => slot

end SentinelEvent

open SentinelEvent

/-- The reply to `ROLE` is that of a sentinel. -/
def IsSentinel (role : RedisResult Value) : Prop :=
  ∃ names, ((cmd "ROLE").query role : RedisResult Role) = .ok (.sentinel names)

/-- The connection was made to this address, where `ROLE` was answered by a sentinel. -/
def Verified (history : List SentinelEvent) (info : ConnectionInfo) (con : Nat) : Prop :=
  ∃ role, connected info con role ∈ history ∧ IsSentinel role

/-- A connection in the slot is verified. -/
def SlotVerified (history : List SentinelEvent) (info : ConnectionInfo) (slot : Option Nat) : Prop :=
  ∀ con, slot = some con → Verified history info con

/-- The last connection of these events. -/
def IsLast (events : List SentinelEvent) (info : ConnectionInfo) (con : Nat) (role : RedisResult Value) : Prop :=
  ∃ es es', events = es ++ connected info con role :: es' ∧ ∀ info con role, connected info con role ∉ es'

/-- Connections are numbered by when they are made. -/
def Named (history : List SentinelEvent) : Prop :=
  ∀ i info con role, history[i]? = some (connected info con role) → con = i

section History

variable {history events : List SentinelEvent} {info info' : ConnectionInfo} {con : Nat} {role role' : RedisResult Value}

theorem IsSentinel.answered (h : IsSentinel role) : (connected info con role).Answered := by
  obtain ⟨names, h⟩ := h
  exact ⟨_, h⟩

theorem SlotVerified.append {slot : Option Nat} (h : SlotVerified history info slot) (events : List SentinelEvent) :
    SlotVerified (history ++ events) info slot := by
  intro con hcon
  obtain ⟨role, hmem, hrole⟩ := h con hcon
  exact ⟨role, mem_append_left _ hmem, hrole⟩

theorem Named.concat (h : Named history) {e : SentinelEvent}
    (he : ∀ info con role, e = connected info con role → con = history.length) : Named (history ++ [e]) := by
  intro i info con role hi
  rw [getElem?_append] at hi
  by_cases hlt : i < history.length
  · rw [if_pos hlt] at hi
    exact h i info con role hi
  · rw [if_neg hlt, getElem?_singleton] at hi
    by_cases heq : i - history.length = 0
    · rw [if_pos heq] at hi
      have hcon := he info con role (Option.some.inj hi)
      omega
    · rw [if_neg heq] at hi
      cases hi

theorem Named.eq (h : Named history) (hmem : connected info con role ∈ history)
    (hmem' : connected info' con role' ∈ history) : info = info' ∧ role = role' := by
  obtain ⟨i, hi⟩ := mem_iff_getElem?.1 hmem
  obtain ⟨i', hi'⟩ := mem_iff_getElem?.1 hmem'
  cases h i info con role hi
  cases h i' info' con role' hi'
  cases hi.symm.trans hi'
  exact ⟨rfl, rfl⟩

theorem slotAfter_eq_some {slot : Option Nat} {con' : Nat} : (connected info con role).slotAfter slot = some con' ↔
    con' = con ∧ ((connected info con role).Answered → IsSentinel role) := by
  rcases hrole : ((cmd "ROLE").query role : RedisResult Role) with err | ⟨_, _⟩ | ⟨_, _, _, _⟩ | names <;>
    simp [slotAfter, Answered, IsSentinel, hrole, eq_comm]

theorem foldl_slotAfter_of_not_mem (h : ∀ info con role, connected info con role ∉ events) (slot : Option Nat) :
    events.foldl slotAfter slot = slot := by
  induction events with
  | nil => rfl
  | cons e events ih =>
    have he : slotAfter slot e = slot := by
      cases e with
      | connected info con role => exact absurd mem_cons_self (h info con role)
      | _ => rfl
    rw [foldl_cons, he]
    exact ih fun info con role hmem => h info con role (mem_cons_of_mem _ hmem)

theorem IsLast.foldl_slotAfter (h : IsLast events info con role) (slot : Option Nat) :
    events.foldl slotAfter slot = (connected info con role).slotAfter none := by
  obtain ⟨es, es', rfl, hnone⟩ := h
  rw [foldl_append, foldl_cons, foldl_slotAfter_of_not_mem hnone]
  rfl

theorem isLast_or_not_mem (events : List SentinelEvent) :
    (∀ info con role, connected info con role ∉ events) ∨ ∃ info con role, IsLast events info con role := by
  induction events with
  | nil => exact .inl fun _ _ _ => not_mem_nil
  | cons e events ih =>
    rcases ih with hnone | ⟨info, con, role, es, es', rfl, hnone⟩
    · cases e with
      | connected info con role => exact .inr ⟨info, con, role, [], events, rfl, hnone⟩
      | _ => exact .inl fun info con role hmem => hnone info con role ((mem_cons.1 hmem).resolve_left nofun)
    · exact .inr ⟨info, con, role, e :: es, es', rfl, hnone⟩

theorem IsLast.mem (h : IsLast events info con role) : connected info con role ∈ events := by
  obtain ⟨es, es', rfl, -⟩ := h
  exact mem_append_right _ mem_cons_self

end History

/-- These events have happened, and no more than these slots of the cache were used. -/
structure Uses (kind : CacheKind) (slots : Set Nat) (s s' : SentinelState) (events : List SentinelEvent) : Prop where
  history : s'.history = s.history ++ events
  named : Named s.history → Named s'.history
  others : ∀ kind' j, ¬ (kind' = kind ∧ j ∈ slots) → s'.cache kind' j = s.cache kind' j

/-- What is done to a slot for a sentinel. A node that does not tell its role is the last one that is asked. -/
structure Touched (kind : CacheKind) (i : Nat) (info : ConnectionInfo) (s s' : SentinelState)
    (events : List SentinelEvent) : Prop extends Uses kind {i} s s' events where
  slot : s'.cache kind i = events.foldl slotAfter (s.cache kind i)
  node : ∀ info' con role, connected info' con role ∈ events → info' = info
  unanswered : ∀ e ∈ events, ¬ e.Answered → events.getLast? = some e

/-- The connection was made and has not told its role. -/
def Unanswered (events : List SentinelEvent) (con : Nat) : Prop :=
  ∃ info role, connected info con role ∈ events ∧ ¬ (connected info con role).Answered

section Slot

variable {kind : CacheKind} {i : Nat} {info : ConnectionInfo} {s s₁ s₂ : SentinelState}
  {events events₁ events₂ : List SentinelEvent} {world : SentinelWorld} {α : Type} [FromRedisValue α]

theorem Uses.refl (kind : CacheKind) (slots : Set Nat) (s : SentinelState) : Uses kind slots s s [] :=
  ⟨(append_nil _).symm, id, fun _ _ _ => rfl⟩

theorem Uses.trans {slots slots₁ slots₂ : Set Nat} (h₁ : Uses kind slots₁ s s₁ events₁)
    (h₂ : Uses kind slots₂ s₁ s₂ events₂) (hsub₁ : slots₁ ⊆ slots) (hsub₂ : slots₂ ⊆ slots) :
    Uses kind slots s s₂ (events₁ ++ events₂) where
  history := by rw [h₂.history, h₁.history, append_assoc]
  named h := h₂.named (h₁.named h)
  others kind' j hne := (h₂.others kind' j fun h => hne ⟨h.1, hsub₂ h.2⟩).trans
    (h₁.others kind' j fun h => hne ⟨h.1, hsub₁ h.2⟩)

theorem Touched.refl (kind : CacheKind) (i : Nat) (info : ConnectionInfo) (s : SentinelState) :
    Touched kind i info s s [] where
  toUses := .refl kind _ s
  slot := rfl
  node _ _ _ h := (by cases h)
  unanswered _ h := (by cases h)

theorem Touched.trans (h₁ : Touched kind i info s s₁ events₁) (hans : ∀ e ∈ events₁, e.Answered)
    (h₂ : Touched kind i info s₁ s₂ events₂) : Touched kind i info s s₂ (events₁ ++ events₂) where
  toUses := h₁.toUses.trans h₂.toUses subset_rfl subset_rfl
  slot := by rw [h₂.slot, h₁.slot, foldl_append]
  node info' con role hmem := (mem_append.1 hmem).elim (h₁.node info' con role) (h₂.node info' con role)
  unanswered e he hunans := by
    rcases mem_append.1 he with he | he
    · exact absurd (hans e he) hunans
    · rw [getLast?_append, h₂.unanswered e he hunans, Option.some_or]

theorem Touched.slotVerified (h : Touched kind i info s s₁ events) (hans : ∀ e ∈ events, e.Answered)
    (hslot : SlotVerified s.history info (s.cache kind i)) : SlotVerified s₁.history info (s₁.cache kind i) := by
  rw [h.history, h.slot]
  rcases isLast_or_not_mem events with hnone | ⟨info', con, role, hlast⟩
  · rw [foldl_slotAfter_of_not_mem hnone]
    exact hslot.append events
  · rw [hlast.foldl_slotAfter]
    intro con' hcon'
    obtain ⟨rfl, hsent⟩ := slotAfter_eq_some.1 hcon'
    obtain rfl := h.node info' con' role hlast.mem
    exact ⟨role, mem_append_right _ hlast.mem, hsent (hans _ hlast.mem)⟩

variable {role : RedisResult Value} {con : Nat} {e : SentinelEvent}

theorem Touched.slot_of_unanswered (h : Touched kind i info s s₁ events) (he : e ∈ events)
    (hunans : ¬ e.Answered) : ∃ con role, s₁.cache kind i = some con ∧ connected info con role ∈ events ∧
      ¬ (connected info con role).Answered := by
  obtain ⟨es, rfl⟩ := getLast?_eq_some_iff.1 (h.unanswered e he hunans)
  cases e with
  | connected info' con role =>
    obtain rfl := h.node info' con role he
    refine ⟨con, role, ?_, he, hunans⟩
    rw [h.slot, foldl_append, foldl_cons, foldl_nil]
    exact slotAfter_eq_some.2 ⟨rfl, fun h => absurd h hunans⟩
  | _ => exact absurd trivial hunans

theorem connect_of_error {err : RedisError} (h : world.connect s.history info = .error err) :
    connect world info s = (.ok (.error err), { s with history := s.history ++ [connectFailed info err] }) := by
  simp only [connect, h]

theorem connect_of_ok {u : Unit} (h : world.connect s.history info = .ok u) :
    connect world info s =
      (.ok (.ok (s.history.length, (cmd "ROLE").query (world.role s.history info))), { s with
        history := s.history ++ [connected info s.history.length (world.role s.history info)] }) := by
  simp only [connect, h]

theorem Touched.of_quiet (he : e.Answered) (hconn : ∀ info con role, e ≠ connected info con role) :
    Touched kind i info s { s with history := s.history ++ [e] } [e] where
  history := rfl
  named h := h.concat fun info con role heq => absurd heq (hconn info con role)
  others _ _ _ := rfl
  slot := (foldl_slotAfter_of_not_mem (fun info con role h => hconn info con role (mem_singleton.1 h).symm) _).symm
  node info con role h := absurd (mem_singleton.1 h).symm (hconn info con role)
  unanswered _ he' hunans := absurd (mem_singleton.1 he' ▸ he) hunans

theorem Touched.connected {slot : Option Nat}
    (hslot : (SentinelEvent.connected info s.history.length role).slotAfter (s.cache kind i) = slot) :
    Touched kind i info s
      ⟨update s.cache kind (update (s.cache kind) i slot),
        s.history ++ [SentinelEvent.connected info s.history.length role]⟩
      [SentinelEvent.connected info s.history.length role] where
  history := rfl
  named h := h.concat fun info' con' role' heq => by cases heq; rfl
  others kind' j hne := by
    show update s.cache kind _ kind' j = _
    by_cases hkind : kind' = kind
    · subst hkind
      rw [update_self, update_of_ne fun hj => hne ⟨rfl, hj⟩]
    · rw [update_of_ne hkind]
  slot := by
    show update s.cache kind _ kind i = _
    rw [update_self, update_self]
    exact hslot.symm
  node info' con' role' hmem := by cases mem_singleton.1 hmem; rfl
  unanswered e he _ := by rw [mem_singleton.1 he]; rfl

/-- What a method leaves of a slot, if it was the only one in use. -/
def Leaves (kind : CacheKind) (i : Nat) (info : ConnectionInfo) (s : SentinelState)
    (Q : RedisResult α → SentinelState → List SentinelEvent → Prop) (r : RedisResult α) (s' : SentinelState) : Prop :=
  ∃ events, Touched kind i info s s' events ∧ Q r s' events

/-- A slot without a new connection to a sentinel is as `before`, or has one whose role is not known. -/
structure Reconnected (kind : CacheKind) (i : Nat) (before : Option Nat) (r : RedisResult Unit) (s' : SentinelState)
    (events : List SentinelEvent) : Prop where
  ok : ∀ a, r = .ok a → (∀ e ∈ events, e.Answered) ∧ ∃ con, s'.cache kind i = some con
  failed : ∀ err, r = .error err → ∀ con, s'.cache kind i = some con → before = some con ∨ Unanswered events con

theorem forgets (s : SentinelState) (con : Nat) :
    (setSlot kind i none >>= fun _ => (pure (.error notASentinelError) : SentinelM (RedisResult Unit)))
        ⟨update s.cache kind (update (s.cache kind) i (some con)), s.history⟩ =
      (.ok (.error notASentinelError), ⟨update s.cache kind (update (s.cache kind) i none), s.history⟩) := by
  show (Except.ok _, SentinelState.mk (update (update s.cache kind _) kind _) _) = _
  simp

theorem Touched.reconnected {r : RedisResult Unit} {before : Option Nat}
    (h : Touched kind i info s s₁ [SentinelEvent.connected info con role]) (hr : (∃ a, r = .ok a) ↔ IsSentinel role) :
    Reconnected kind i before r s₁ [SentinelEvent.connected info con role] := by
  have hslot := h.slot
  rw [foldl_cons, foldl_nil] at hslot
  refine ⟨fun a ha => ?_, fun err herr con' hcon' => .inr ?_⟩
  · have hrole := hr.1 ⟨a, ha⟩
    exact ⟨forall_mem_singleton.2 hrole.answered, con, hslot.trans (slotAfter_eq_some.2 ⟨rfl, fun _ => hrole⟩)⟩
  · obtain ⟨rfl, hrole⟩ := slotAfter_eq_some.1 (hslot.symm.trans hcon')
    refine ⟨info, role, mem_cons_self, fun hans => ?_⟩
    obtain ⟨a, ha⟩ := hr.2 (hrole hans)
    cases herr.symm.trans ha

theorem wp_reconnect (world : SentinelWorld) (kind : CacheKind) (i : Nat) (info : ConnectionInfo) (s : SentinelState) :
    wp (reconnect world kind i info) (Leaves kind i info s (Reconnected kind i (s.cache kind i))) s := by
  rcases hconnect : world.connect s.history info with err | _
  · exact ⟨_, _, (bind_of_ok (connect_of_error hconnect)).trans rfl, [connectFailed info err],
      .of_quiet trivial (fun _ _ _ h => by cases h), fun _ h => (by cases h), fun _ _ con hcon => .inl hcon⟩
  have hcon := connect_of_ok hconnect
  have hleaves : ∀ {r slot}, reconnect world kind i info s = (.ok r, ⟨update s.cache kind (update (s.cache kind) i slot),
      s.history ++ [connected info s.history.length (world.role s.history info)]⟩) →
      (connected info s.history.length (world.role s.history info)).slotAfter (s.cache kind i) = slot →
      ((∃ a, r = .ok a) ↔ IsSentinel (world.role s.history info)) →
      wp (reconnect world kind i info) (Leaves kind i info s (Reconnected kind i (s.cache kind i))) s :=
    fun hrun hslot hr => ⟨_, _, hrun, _, .connected hslot, (Touched.connected hslot).reconnected hr⟩
  rcases hrole : ((cmd "ROLE").query (world.role s.history info) : RedisResult Role) with
    err | ⟨_, _⟩ | ⟨_, _, _, _⟩ | names <;> rw [hrole] at hcon
  · exact hleaves ((bind_of_ok hcon).trans rfl) (by simp only [slotAfter, hrole]) (by simp [IsSentinel, hrole])
  · exact hleaves ((bind_of_ok hcon).trans (forgets ⟨s.cache, _⟩ _)) (by simp only [slotAfter, hrole])
      (by simp [IsSentinel, hrole])
  · exact hleaves ((bind_of_ok hcon).trans (forgets ⟨s.cache, _⟩ _)) (by simp only [slotAfter, hrole])
      (by simp [IsSentinel, hrole])
  · exact hleaves ((bind_of_ok hcon).trans rfl) (by simp only [slotAfter, hrole]) (by simp [IsSentinel, hrole])

/-- Some connection in the slot was asked, and this is its answer. -/
def Asked (kind : CacheKind) (i : Nat) (cmd : Cmd) (r : RedisResult α) (s' : SentinelState)
    (events : List SentinelEvent) : Prop :=
  ∃ con reply, s'.cache kind i = some con ∧ queried con cmd reply ∈ events ∧ cmd.query reply = r

/-- The connection in the slot failed to answer, its answer is the result, or its role is not known. -/
structure Tried (kind : CacheKind) (i : Nat) (cmd : Cmd) (r : RedisResult α) (s' : SentinelState)
    (events : List SentinelEvent) : Prop where
  used : ∀ con, s'.cache kind i = some con →
    (∃ reply, queried con cmd reply ∈ events ∧ ∀ a, cmd.query reply = .ok a → r = .ok a) ∨ Unanswered events con
  ok : ∀ a, r = .ok a → (∀ e ∈ events, e.Answered) ∧ Asked kind i cmd r s' events

theorem Tried.of_asked {cmd : Cmd} {r : RedisResult α} {s' : SentinelState} (hans : ∀ e ∈ events, e.Answered)
    (h : Asked kind i cmd r s' events) : Tried kind i cmd r s' events where
  used con hcon := by
    obtain ⟨con', reply, hcon', hmem, hrep⟩ := h
    cases hcon.symm.trans hcon'
    exact .inl ⟨reply, hmem, fun a ha => hrep.symm.trans ha⟩
  ok _ _ := ⟨hans, h⟩

theorem wp_query (h : Touched kind i info s s₁ events) (hans : ∀ e ∈ events, e.Answered)
    (hcon : s₁.cache kind i = some con) (cmd : Cmd) :
    wp (query world kind i cmd : SentinelM (RedisResult α)) (fun r s' => ∃ events, Touched kind i info s s' events ∧
      (∀ e ∈ events, e.Answered) ∧ s'.cache = s₁.cache ∧ Asked kind i cmd r s' events) s₁ := by
  have hunwrap : unwrapSlot kind i s₁ = (.ok con, s₁) := by simp only [unwrapSlot, hcon]
  refine ⟨_, _, (bind_of_ok hunwrap).trans rfl, events ++ [queried con cmd (world.reply s₁.history con cmd)],
    h.trans hans (.of_quiet trivial fun _ _ _ h => by cases h), ?_, rfl, con, _, hcon, ?_, rfl⟩
  · exact forall_mem_append.2 ⟨hans, forall_mem_singleton.2 trivial⟩
  · exact mem_append_right _ mem_cons_self

theorem Unanswered.mono (h : Unanswered events₁ con) (hsub : events₁ ⊆ events₂) : Unanswered events₂ con := by
  obtain ⟨info, role, hmem, hrole⟩ := h
  exact ⟨info, role, hsub hmem, hrole⟩

theorem wp_ensureConnected (world : SentinelWorld) (kind : CacheKind) (i : Nat) (info : ConnectionInfo)
    (s : SentinelState) :
    wp (ensureConnected world kind i info) (Leaves kind i info s (Reconnected kind i none)) s := by
  have hslot : Sentinel.slot kind i s = (.ok (s.cache kind i), s) := rfl
  rcases hcache : s.cache kind i with _ | con <;> rw [hcache] at hslot
  · obtain ⟨r, s', hrun, hpost⟩ := wp_reconnect world kind i info s
    exact ⟨r, s', (bind_of_ok hslot).trans hrun, hcache ▸ hpost⟩
  · exact ⟨.ok (), s, (bind_of_ok hslot).trans rfl, [], .refl kind i info s,
      fun _ _ => ⟨forall_mem_nil _, con, hcache⟩, fun _ h => by cases h⟩

theorem wp_trySingleSentinel (world : SentinelWorld) (kind : CacheKind) (cmd : Cmd) (i : Nat) (info : ConnectionInfo)
    (s : SentinelState) :
    wp (trySingleSentinel world kind cmd i info : SentinelM (RedisResult α))
      (Leaves kind i info s (Tried kind i cmd)) s := by
  refine wp_bind (wp_mono (wp_ensureConnected world kind i info s) ?_)
  rintro (err | _) s₁ ⟨events₁, h₁, hok₁, hfail₁⟩
  · exact wp_pure ⟨events₁, h₁, fun con hcon => .inr ((hfail₁ err rfl con hcon).resolve_left nofun),
      fun _ h => by cases h⟩
  obtain ⟨hans₁, con, hcon⟩ := hok₁ _ rfl
  refine wp_bind (wp_mono (wp_query h₁ hans₁ hcon cmd) ?_)
  rintro (err | a) s₂ ⟨events₂, h₂, hans₂, hcache, hasked⟩
  · have htried := Tried.of_asked hans₂ hasked
    dsimp only
    split
    · refine wp_bind (wp_mono (wp_reconnect world kind i info s₂) ?_)
      rintro (err' | _) s₃ ⟨events₃, h₃, hok₃, hfail₃⟩
      · refine wp_pure ⟨_, h₂.trans hans₂ h₃, fun con hcon => ?_, fun _ h => by cases h⟩
        rcases hfail₃ err' rfl con hcon with hbef | hunans
        · -- the new attempt to connect has failed, and the old connection is still there
          obtain ⟨con', reply, hcon', hmem, hrep⟩ := hasked
          cases hbef.symm.trans hcon'
          refine .inl ⟨reply, mem_append_left _ hmem, fun a ha => ?_⟩
          cases hrep.symm.trans ha
        · exact .inr (hunans.mono (subset_append_right _ _))
      · obtain ⟨hans₃, con₃, hcon₃⟩ := hok₃ _ rfl
        have hans := forall_mem_append.2 ⟨hans₂, hans₃⟩
        refine wp_mono (wp_query (h₂.trans hans₂ h₃) hans hcon₃ cmd) ?_
        rintro r s₄ ⟨events₄, h₄, hans₄, -, hasked₄⟩
        exact ⟨events₄, h₄, .of_asked hans₄ hasked₄⟩
    · exact wp_pure ⟨_, h₂, htried⟩
  · exact wp_pure ⟨events₂, h₂, .of_asked hans₂ hasked⟩

end Slot

/-- What is done to the slots from `i` on, one for each of the sentinels. -/
structure Passed (kind : CacheKind) (i : Nat) (infos : List ConnectionInfo) (s s' : SentinelState)
    (events : List SentinelEvent) : Prop extends Uses kind (Set.Ico i (i + infos.length)) s s' events where
  verified : (∀ e ∈ events, e.Answered) → ∀ j info, infos[j]? = some info →
    SlotVerified s.history info (s.cache kind (i + j)) → SlotVerified s'.history info (s'.cache kind (i + j))
  unanswered : (∃ e ∈ events, ¬ e.Answered) → ∃ j info con role, j < infos.length ∧ s'.cache kind (i + j) = some con ∧
    connected info con role ∈ events ∧ ¬ (connected info con role).Answered

section Slots

variable {kind : CacheKind} {i : Nat} {info : ConnectionInfo} {infos : List ConnectionInfo} {s s₁ s₂ : SentinelState}
  {events₁ events₂ : List SentinelEvent} {α : Type} [FromRedisValue α]

theorem Passed.nil (kind : CacheKind) (i : Nat) (infos : List ConnectionInfo) (s : SentinelState) :
    Passed kind i infos s s [] where
  toUses := .refl kind _ s
  verified _ _ _ _ h := h
  unanswered h := by
    obtain ⟨e, he, -⟩ := h
    cases he

theorem Passed.cons (h₁ : Touched kind i info s s₁ events₁) (h₂ : Passed kind (i + 1) infos s₁ s₂ events₂) :
    Passed kind i (info :: infos) s s₂ (events₁ ++ events₂) where
  toUses := by
    refine h₁.toUses.trans h₂.toUses (fun j hj => ?_) fun j hj => ?_ <;>
      simp only [Set.mem_singleton_iff, Set.mem_Ico, length_cons] at hj ⊢ <;> omega
  verified hans j info' hj hslot := by
    have hans₁ : ∀ e ∈ events₁, e.Answered := fun e he => hans e (mem_append_left _ he)
    have hans₂ : ∀ e ∈ events₂, e.Answered := fun e he => hans e (mem_append_right _ he)
    rcases j with _ | j
    · cases hj
      have hslot₁ := h₁.slotVerified hans₁ hslot
      rw [Nat.add_zero, h₂.others kind i fun h => absurd h.2.1 (Nat.not_succ_le_self i), h₂.history]
      exact hslot₁.append events₂
    · have hsame : s₁.cache kind (i + (j + 1)) = s.cache kind (i + (j + 1)) := h₁.others kind _ fun h => by cases h.2
      have hindex : i + (j + 1) = i + 1 + j := by omega
      rw [hindex] at hsame hslot ⊢
      refine h₂.verified hans₂ j info' hj ?_
      rw [hsame, h₁.history]
      exact hslot.append events₁
  unanswered h := by
    by_cases hlater : ∃ e ∈ events₂, ¬ e.Answered
    · obtain ⟨j, info', con, role, hj, hcon, hmem, hrole⟩ := h₂.unanswered hlater
      refine ⟨j + 1, info', con, role, Nat.succ_lt_succ hj, ?_, mem_append_right _ hmem, hrole⟩
      rw [← hcon]
      congr 1
      omega
    · -- the first slot was left so, and it is not touched again
      obtain ⟨e, he, hunans⟩ := h
      have he₁ : e ∈ events₁ := (mem_append.1 he).resolve_right fun he₂ => hlater ⟨e, he₂, hunans⟩
      obtain ⟨con, role, hcon, hmem, hrole⟩ := h₁.slot_of_unanswered he₁ hunans
      refine ⟨0, info, con, role, Nat.succ_pos _, ?_, mem_append_left _ hmem, hrole⟩
      rw [Nat.add_zero, h₂.others kind i fun h => absurd h.2.1 (Nat.not_succ_le_self i)]
      exact hcon

theorem wp_tryFrom (world : SentinelWorld) (kind : CacheKind) (cmd : Cmd) (infos : List ConnectionInfo) (i : Nat)
    (lastErr : Option RedisError) (hlast : infos = [] → lastErr ≠ none) (s : SentinelState) :
    wp (tryFrom world kind cmd i infos lastErr : SentinelM (RedisResult α))
      (fun _ s' => ∃ events, Passed kind i infos s s' events) s := by
  induction infos generalizing i lastErr s with
  | nil =>
    obtain ⟨err, rfl⟩ := Option.ne_none_iff_exists'.1 (hlast rfl)
    exact wp_pure ⟨[], .nil kind i [] s⟩
  | cons info infos ih =>
    refine wp_bind (wp_mono (wp_trySingleSentinel world kind cmd i info s) ?_)
    rintro (err | a) s₁ ⟨events₁, h₁, -⟩
    · refine wp_mono (ih (i + 1) (some err) (nofun) s₁) ?_
      rintro _ s₂ ⟨events₂, h₂⟩
      exact ⟨_, .cons h₁ h₂⟩
    · exact wp_pure ⟨_, .cons h₁ (.nil kind (i + 1) infos s₁)⟩

/-- The connection has been asked for its role and is no sentinel, or has not told it. -/
def UsedUp (events : List SentinelEvent) (con : Nat) : Prop :=
  (∃ reply, queried con (cmd "ROLE") reply ∈ events ∧ ¬ IsSentinel reply) ∨ Unanswered events con

theorem UsedUp.mono {con : Nat} (h : UsedUp events₁ con) (hsub : events₁ ⊆ events₂) : UsedUp events₂ con := by
  refine h.imp ?_ (Unanswered.mono · hsub)
  rintro ⟨reply, hmem, hrep⟩
  exact ⟨reply, hsub hmem, hrep⟩

/-- What `get_sentinel_client` does from here on. -/
structure Searched (kind : CacheKind) (infos : List ConnectionInfo) (s s' : SentinelState) (events : List SentinelEvent)
    (r : RedisResult ConnectionInfo) : Prop extends Uses kind {0} s s' events where
  slot : s'.cache kind 0 = events.foldl slotAfter (s.cache kind 0)
  answer : ∀ info, r = .ok info → ∃ con reply es es', s'.cache kind 0 = some con ∧
    events = es ++ queried con (cmd "ROLE") reply :: es' ∧ IsSentinel reply ∧
    (infos.head? = some info ∧ s.cache kind 0 = some con ∨ (∃ role, connected info con role ∈ events) ∨ UsedUp es con)

theorem Touched.searched (h : Touched kind 0 info s s₁ events₁) {reply : RedisResult Value} {con : Nat}
    (hcon : s₁.cache kind 0 = some con) (hmem : queried con (cmd "ROLE") reply ∈ events₁) (hrep : IsSentinel reply) :
    Searched kind (info :: infos) s s₁ events₁ (.ok info) := by
  refine ⟨h.toUses, h.slot, fun _ heq => ?_⟩
  cases heq
  obtain ⟨es, es', rfl⟩ := append_of_mem hmem
  refine ⟨con, reply, es, es', hcon, rfl, hrep, ?_⟩
  rw [h.slot] at hcon
  rcases isLast_or_not_mem (es ++ queried con (cmd "ROLE") reply :: es') with hnone | ⟨info', con', role, hlast⟩
  · rw [foldl_slotAfter_of_not_mem hnone] at hcon
    exact .inl ⟨rfl, hcon⟩
  · rw [hlast.foldl_slotAfter] at hcon
    obtain ⟨rfl, -⟩ := slotAfter_eq_some.1 hcon
    obtain rfl := h.node info' con role hlast.mem
    exact .inr (.inl ⟨role, hlast.mem⟩)

theorem Searched.after {r : RedisResult ConnectionInfo} (h₁ : Touched kind 0 info s s₁ events₁)
    (hused : ∀ con, s₁.cache kind 0 = some con → UsedUp events₁ con)
    (h₂ : Searched kind infos s₁ s₂ events₂ r) : Searched kind (info :: infos) s s₂ (events₁ ++ events₂) r where
  toUses := h₁.toUses.trans h₂.toUses subset_rfl subset_rfl
  slot := by rw [h₂.slot, h₁.slot, foldl_append]
  answer info hr := by
    obtain ⟨con, reply, es, es', hcon, rfl, hrep, horigin⟩ := h₂.answer info hr
    refine ⟨con, reply, events₁ ++ es, es', hcon, (append_assoc _ _ _).symm, hrep, .inr ?_⟩
    rcases horigin with ⟨-, hslot⟩ | ⟨role, hmem⟩ | hused'
    · exact .inr ((hused con hslot).mono (subset_append_left _ _))
    · exact .inl ⟨role, mem_append_right _ hmem⟩
    · exact .inr (hused'.mono (subset_append_right _ _))

theorem wp_getSentinelClientFrom (world : SentinelWorld) (kind : CacheKind) (infos : List ConnectionInfo)
    (err : RedisError) (s : SentinelState) :
    wp (getSentinelClientFrom world kind infos err) (fun r s' => ∃ events, Searched kind infos s s' events r) s := by
  induction infos generalizing err s with
  | nil => exact wp_pure ⟨[], .refl kind _ s, rfl, fun _ h => by cases h⟩
  | cons info infos ih =>
    have hnext : ∀ {s₁ events₁} {r : RedisResult Role} (err : RedisError), Touched kind 0 info s s₁ events₁ →
        Tried kind 0 (cmd "ROLE") r s₁ events₁ → (∀ names, r ≠ .ok (.sentinel names)) →
        wp (getSentinelClientFrom world kind infos err)
          (fun r s' => ∃ events, Searched kind (info :: infos) s s' events r) s₁ := by
      intro s₁ events₁ r err h₁ htried hr
      refine wp_mono (ih err s₁) ?_
      rintro r s₂ ⟨events₂, h₂⟩
      refine ⟨_, h₂.after h₁ fun con hcon => (htried.used con hcon).imp_left ?_⟩
      rintro ⟨reply, hmem, hrep⟩
      exact ⟨reply, hmem, fun ⟨names, hnames⟩ => hr names (hrep _ hnames)⟩
    refine wp_bind (wp_mono (wp_trySingleSentinel world kind (cmd "ROLE") 0 info s) ?_)
    rintro (e | role) s₁ ⟨events₁, h₁, htried⟩
    · exact hnext e h₁ htried nofun
    · cases role with
      | sentinel names =>
        obtain ⟨-, con, reply, hcon, hmem, hrep⟩ := htried.ok _ rfl
        exact wp_pure ⟨events₁, h₁.searched hcon hmem ⟨names, hrep⟩⟩
      | _ => exact hnext err h₁ htried nofun

end Slots

def SentinelCall.isGetSentinelClient : SentinelCall → Bool
  | getSentinelClient _ => true
  | _ => false

namespace SentinelState

def since (s s' : SentinelState) : List SentinelEvent := s'.history.drop s.history.length

theorem since_eq {s s' : SentinelState} {events : List SentinelEvent} (h : s'.history = s.history ++ events) :
    since s s' = events := by rw [since, h, drop_left]

/-- The caches have connections to the sentinels only, each in its slot. -/
def SlotsVerified (sentinel : Sentinel) (s : SentinelState) : Prop :=
  ∀ kind i con, s.cache kind i = some con →
    ∃ info, sentinel.sentinelsConnectionInfo[i]? = some info ∧ Verified s.history info con

/-- The caches are right, and a client that was returned is for a node that has said it is a sentinel. -/
structure Right {α : Type} (sentinel : Sentinel) (s : SentinelState) (result : SentinelResult α) (s' : SentinelState) :
    Prop where
  slots : s'.SlotsVerified sentinel
  client : ∀ info, result = .client (.ok info) → ∃ con role reply, connected info con role ∈ s'.history ∧
    queried con (cmd "ROLE") reply ∈ since s s' ∧ IsSentinel reply

/-- Each node that a call connects to tells its role. -/
structure Orderly (sentinel : Sentinel) (s : SentinelState) (call : SentinelCall) (s' : SentinelState) : Prop where
  answered : call.isGetSentinelClient = false → ∀ e ∈ since s s', e.Answered
  last : call.isGetSentinelClient = true → ∀ info con role, IsLast (since s s') info con role →
    (connected info con role).Answered ∧ (IsSentinel role → sentinel.sentinelsConnectionInfo.head? = some info)

/-- A node that tells a call that it is a sentinel has not told it otherwise over the same connection. -/
def Steady (s s' : SentinelState) : Prop :=
  ∀ es con reply es', since s s' = es ++ queried con (cmd "ROLE") reply :: es' → IsSentinel reply →
    ∀ reply', queried con (cmd "ROLE") reply' ∈ es → IsSentinel reply'

/-- Every cached connection is to a node that is what its slot says. -/
structure Cached (sentinel : Sentinel) (s : SentinelState) : Prop where
  named : Named s.history
  slots : s.SlotsVerified sentinel

section Calls

variable {sentinel : Sentinel} {world : SentinelWorld} {s s' : SentinelState} {α : Type} [FromRedisValue α]
  {call : SentinelCall} {result : SentinelResult α} {kind : CacheKind} {events : List SentinelEvent}

theorem Cached.slotVerified (h : s.Cached sentinel) {i : Nat} {info : ConnectionInfo}
    (hi : sentinel.sentinelsConnectionInfo[i]? = some info) : SlotVerified s.history info (s.cache kind i) := by
  intro con hcon
  obtain ⟨info', hi', hver⟩ := h.slots kind i con hcon
  cases hi.symm.trans hi'
  exact hver

theorem Cached.cache_eq_none (h : s.Cached sentinel) {i : Nat} (hi : sentinel.sentinelsConnectionInfo.length ≤ i) :
    s.cache kind i = none := by
  rcases hcache : s.cache kind i with _ | con
  · rfl
  · obtain ⟨info, hinfo, -⟩ := h.slots kind i con hcache
    rw [getElem?_eq_none hi] at hinfo
    cases hinfo

theorem slotsVerified_of {history : List SentinelEvent} {cache : CacheKind → Nat → Option Nat}
    (hrange : ∀ kind i, sentinel.sentinelsConnectionInfo.length ≤ i → cache kind i = none)
    (hslots : ∀ kind i info, sentinel.sentinelsConnectionInfo[i]? = some info →
      SlotVerified history info (cache kind i)) : SlotsVerified sentinel ⟨cache, history⟩ := by
  intro kind i con hcon
  rcases hinfo : sentinel.sentinelsConnectionInfo[i]? with _ | info
  · cases (hrange kind i (List.getElem?_eq_none_iff.1 hinfo)).symm.trans hcon
  · exact ⟨info, rfl, hslots kind i info hinfo con hcon⟩

theorem Cached.passed (h : s.Cached sentinel)
    (hp : Passed kind 0 sentinel.sentinelsConnectionInfo s s' events) (hans : ∀ e ∈ events, e.Answered) :
    s'.Cached sentinel := by
  refine ⟨hp.named h.named, slotsVerified_of (fun kind' i hi => ?_) fun kind' i info hinfo => ?_⟩
  · rw [hp.others kind' i fun hne => by have := hne.2.2; omega]
    exact h.cache_eq_none hi
  · by_cases hkind : kind' = kind
    · have hslot := hp.verified hans i info hinfo
      rw [Nat.zero_add] at hslot
      rw [hkind]
      exact hslot (h.slotVerified hinfo)
    · rw [hp.others kind' i fun hne => hkind hne.1, hp.history]
      exact (h.slotVerified hinfo).append events

theorem Cached.answered_of_slotsVerified (h : s.Cached sentinel)
    (hp : Passed kind 0 sentinel.sentinelsConnectionInfo s s' events) (hslots : s'.SlotsVerified sentinel) :
    ∀ e ∈ events, e.Answered := by
  by_contra hnot
  push Not at hnot
  obtain ⟨j, info, con, role, -, hcon, hmem, hrole⟩ := hp.unanswered hnot
  obtain ⟨info', -, role', hmem', hsent⟩ := hslots kind _ con hcon
  have hmem'' : connected info con role ∈ s'.history := hp.history ▸ mem_append_right _ hmem
  obtain ⟨-, rfl⟩ := (hp.named h.named).eq hmem'' hmem'
  exact hrole hsent.answered

section Search

variable {r : RedisResult ConnectionInfo} {target : ConnectionInfo}
  (hs : Searched kind sentinel.sentinelsConnectionInfo s s' events r)
include hs

theorem Cached.searched (h : s.Cached sentinel) (hhead : sentinel.sentinelsConnectionInfo.head? = some target)
    (hlast : ∀ info con role, IsLast events info con role →
      (connected info con role).Answered ∧ (IsSentinel role → sentinel.sentinelsConnectionInfo.head? = some info)) :
    s'.Cached sentinel := by
  have hzero : sentinel.sentinelsConnectionInfo[0]? = some target := head?_eq_getElem? ▸ hhead
  refine ⟨hs.named h.named, slotsVerified_of (fun kind' i hi => ?_) fun kind' i info hinfo => ?_⟩
  · have hlen := (List.getElem?_eq_some_iff.1 hzero).1
    rw [hs.others kind' i fun hne => by cases hne.2; omega]
    exact h.cache_eq_none hi
  · by_cases hslot : kind' = kind ∧ i = 0
    · obtain ⟨rfl, rfl⟩ := hslot
      cases hzero.symm.trans hinfo
      rw [hs.slot, hs.history]
      rcases isLast_or_not_mem events with hnone | ⟨info', con, role, hlast'⟩
      · rw [foldl_slotAfter_of_not_mem hnone]
        exact (h.slotVerified hinfo).append events
      · rw [hlast'.foldl_slotAfter]
        intro con' hcon'
        obtain ⟨rfl, hsent⟩ := slotAfter_eq_some.1 hcon'
        obtain ⟨hans, hfirst⟩ := hlast info' con' role hlast'
        cases hhead.symm.trans (hfirst (hsent hans))
        exact ⟨role, mem_append_right _ hlast'.mem, hsent hans⟩
    · rw [hs.others kind' i hslot, hs.history]
      exact (h.slotVerified hinfo).append events

theorem Cached.last_of_slotsVerified (h : s.Cached sentinel) (hslots : s'.SlotsVerified sentinel) {info : ConnectionInfo}
    {con : Nat} {role : RedisResult Value} (hlast : IsLast events info con role) :
    (connected info con role).Answered ∧ (IsSentinel role → sentinel.sentinelsConnectionInfo.head? = some info) := by
  have hver : ((connected info con role).Answered → IsSentinel role) →
      IsSentinel role ∧ sentinel.sentinelsConnectionInfo.head? = some info := by
    intro hsent
    have hcon := hs.slot.trans (hlast.foldl_slotAfter _)
    rw [slotAfter_eq_some.2 ⟨rfl, hsent⟩] at hcon
    obtain ⟨info', hinfo', role', hmem, hrole'⟩ := hslots kind 0 con hcon
    obtain ⟨rfl, rfl⟩ := (hs.named h.named).eq (hs.history ▸ mem_append_right _ hlast.mem) hmem
    exact ⟨hrole', head?_eq_getElem? ▸ hinfo'⟩
  by_cases hans : (connected info con role).Answered
  · exact ⟨hans, fun hrole => (hver fun _ => hrole).2⟩
  · exact absurd (hver fun h => absurd h hans).1.answered hans

end Search

theorem wp_tryAllSentinels (sentinel : Sentinel) (world : SentinelWorld) (kind : CacheKind) (cmd : Cmd)
    (s : SentinelState) :
    wp (sentinel.tryAllSentinels world kind cmd : SentinelM (RedisResult α))
      (fun _ s' => ∃ events, Passed kind 0 sentinel.sentinelsConnectionInfo s s' events) s :=
  wp_tryFrom world kind cmd _ 0 none (fun hnil => absurd hnil sentinel.nonempty) s

theorem step_cases (α : Type) [FromRedisValue α] (world : SentinelWorld) (sentinel : Sentinel) (s : SentinelState)
    (call : SentinelCall) : ∃ result s', step α world sentinel s call = some (result, s') ∧
      ((call.isGetSentinelClient = false ∧ (∃ servers, result = .servers servers) ∧
          ∃ kind events, Passed kind 0 sentinel.sentinelsConnectionInfo s s' events) ∨
        (call.isGetSentinelClient = true ∧ ∃ client, result = .client client ∧
          ∃ kind events, Searched kind sentinel.sentinelsConnectionInfo s s' events client)) := by
  cases call with
  | getSentinelMasters kind =>
    obtain ⟨r, s', hrun, events, hpass⟩ := wp_tryAllSentinels (α := α) sentinel world kind sentinelMastersCmd s
    exact ⟨.servers r, s', by simp only [step, hrun], .inl ⟨rfl, ⟨r, rfl⟩, kind, events, hpass⟩⟩
  | getSentinelReplicas kind serviceName =>
    obtain ⟨r, s', hrun, events, hpass⟩ :=
      wp_tryAllSentinels (α := α) sentinel world kind (sentinelReplicasCmd serviceName) s
    exact ⟨.servers r, s', by simp only [step, hrun], .inl ⟨rfl, ⟨r, rfl⟩, kind, events, hpass⟩⟩
  | getSentinelClient kind =>
    obtain ⟨r, s', hrun, events, hsearched⟩ := wp_getSentinelClientFrom world kind sentinel.sentinelsConnectionInfo
      (.general .invalidClientConfig "Couldn't open connection to a sentinel node." none) s
    refine ⟨.client r, s', ?_, .inr ⟨rfl, r, rfl, kind, events, hsearched⟩⟩
    simp only [step, Sentinel.getSentinelClient, hrun]

theorem Cached.slotsVerified_iff (h : s.Cached sentinel) (hs : step α world sentinel s call = some (result, s')) :
    (s'.SlotsVerified sentinel ↔ Orderly sentinel s call s') ∧ (s'.SlotsVerified sentinel → s'.Cached sentinel) := by
  obtain ⟨result₁, s₁, hs₁, hcases⟩ := step_cases α world sentinel s call
  cases hs₁.symm.trans hs
  rcases hcases with ⟨hcall, -, kind, events, hpass⟩ | ⟨hcall, client, -, kind, events, hsearched⟩
  · refine ⟨⟨fun hslots => ⟨fun _ => ?_, fun hclient => ?_⟩, fun hord => ?_⟩, fun hslots => ⟨hpass.named h.named, hslots⟩⟩
    · rw [since_eq hpass.history]
      exact h.answered_of_slotsVerified hpass hslots
    · cases hcall.symm.trans hclient
    · have hans := hord.answered hcall
      rw [since_eq hpass.history] at hans
      exact (h.passed hpass hans).slots
  · refine ⟨⟨fun hslots => ⟨fun hclient => ?_, fun _ info con role hlast => ?_⟩, fun hord => ?_⟩,
      fun hslots => ⟨hsearched.named h.named, hslots⟩⟩
    · cases hcall.symm.trans hclient
    · rw [since_eq hsearched.history] at hlast
      exact Cached.last_of_slotsVerified hsearched h hslots hlast
    · have hlast := hord.last hcall
      rw [since_eq hsearched.history] at hlast
      obtain ⟨target, infos, hinfos⟩ := exists_cons_of_ne_nil sentinel.nonempty
      exact (Cached.searched hsearched h (by rw [hinfos]; rfl) hlast).slots

theorem Cached.right_of_steady (h : s.Cached sentinel) (hs : step α world sentinel s call = some (result, s'))
    (hslots : s'.SlotsVerified sentinel) (hsteady : call.isGetSentinelClient = true → Steady s s') :
    Right sentinel s result s' := by
  refine ⟨hslots, fun info heq => ?_⟩
  obtain ⟨result₁, s₁, hs₁, hcases⟩ := step_cases α world sentinel s call
  cases hs₁.symm.trans hs
  rcases hcases with ⟨-, ⟨servers, rfl⟩, -⟩ | ⟨hcall, client, rfl, kind, events, hsearched⟩
  · cases heq
  cases heq
  have hsince := since_eq hsearched.history
  obtain ⟨con, reply, es, es', hcon, hevents, hrep, horigin⟩ := hsearched.answer info rfl
  -- the connection in the first slot was made to the first sentinel
  obtain ⟨info', hinfo', role, hmem, hrole⟩ := hslots kind 0 con hcon
  have hof : ∀ {info₁ role₁}, connected info₁ con role₁ ∈ events → info₁ = info' ∧ role₁ = role := fun hmem₁ =>
    (hsearched.named h.named).eq (hsearched.history ▸ mem_append_right _ hmem₁) hmem
  have hinfo : info = info' := by
    rcases horigin with ⟨hhead, -⟩ | ⟨role₁, hmem₁⟩ | ⟨reply', hmem₁, hrep'⟩ | ⟨info₁, role₁, hmem₁, hrole₁⟩
    · rw [head?_eq_getElem?] at hhead
      exact Option.some.inj (hhead.symm.trans hinfo')
    · exact (hof hmem₁).1
    · exact absurd (hsteady hcall es con reply es' (hsince.trans hevents) hrep reply' hmem₁) hrep'
    · obtain ⟨-, rfl⟩ := hof (hevents ▸ mem_append_left _ hmem₁)
      exact absurd hrole.answered hrole₁
  subst hinfo
  refine ⟨con, role, reply, hmem, ?_, hrep⟩
  rw [hsince, hevents]
  exact mem_append_right _ mem_cons_self

end Calls

theorem start_cached (sentinel : Sentinel) : start.Cached sentinel := by
  refine ⟨fun i info con role hi => ?_, fun kind i con hcon => ?_⟩
  · cases hi
  · cases hcon

/-- Every call returns. The caches are right after every call exactly if the nodes are orderly, and if they are steady too
then each client that is returned is for a sentinel. -/
theorem sentinel_caches_verified (α : Type) [FromRedisValue α] (world : SentinelWorld) (sentinel : Sentinel)
    (calls : List SentinelCall) :
    (run (step α world sentinel) start calls).isSome = true ∧
    (Along (step α world sentinel) (fun _ _ _ s' => s'.SlotsVerified sentinel) start calls ↔
      Along (step α world sentinel) (fun s call _ s' => Orderly sentinel s call s') start calls) ∧
    (Along (step α world sentinel)
        (fun s call _ s' => Orderly sentinel s call s' ∧ (call.isGetSentinelClient = true → Steady s s')) start calls →
      Along (step α world sentinel) (fun s _ result s' => Right sentinel s result s') start calls) := by
  refine ⟨?_, ?_, ?_⟩
  · refine run_isSome (fun s call => ?_) start calls
    obtain ⟨result, s', hs, -⟩ := step_cases α world sentinel s call
    rw [hs]
    rfl
  · exact along_iff (fun s call result s' h hs => h.slotsVerified_iff hs) (start_cached sentinel) calls
  · refine along_mono (fun s call result s' h hs ⟨horderly, hsteady⟩ => ?_) (start_cached sentinel)
    obtain ⟨hiff, hcached⟩ := h.slotsVerified_iff hs
    have hslots := hiff.2 horderly
    exact ⟨h.right_of_steady hs hslots hsteady, hcached hslots⟩

def sentinelAt (host : String) : ConnectionInfo where
  addr := .tcp host 26379
  redis := ⟨0, none, none, .resp2, false, none, none⟩

def sentinelRole : RedisResult Value := .ok (.array [.bulkString (bytesOf "sentinel"), .array []])

def refusal : RedisResult Value := .ok (.serverError (.known .noPerm none))

def twoSentinels : Sentinel := ⟨[sentinelAt "a", sentinelAt "b"], cons_ne_nil _ _⟩

theorem isSentinel_sentinelRole : IsSentinel sentinelRole := ⟨[], rfl⟩

def sentinelWorld : SentinelWorld := ⟨fun _ _ => .ok (), fun _ _ => sentinelRole, fun _ _ _ => sentinelRole⟩

theorem sentinelWorld_verified :
    Along (step Value sentinelWorld twoSentinels) (fun s _ result s' => Right twoSentinels s result s') start
      [.getSentinelMasters .sync, .getSentinelClient .sync] := by
  refine (sentinel_caches_verified Value sentinelWorld twoSentinels _).2.2 ?_
  have hfirst : ∀ e ∈ [connected (sentinelAt "a") 0 sentinelRole, queried 0 sentinelMastersCmd sentinelRole],
      e.Answered :=
    forall_mem_cons.2 ⟨isSentinel_sentinelRole.answered, forall_mem_singleton.2 trivial⟩
  refine along_cons rfl ⟨⟨fun _ => hfirst, nofun⟩, nofun⟩
    (along_cons rfl ⟨⟨nofun, fun _ info con role hlast => ?_⟩, fun _ es con reply es' heq _ reply' hmem => ?_⟩ trivial)
  · have hmem : connected info con role ∈ [queried 0 (cmd "ROLE") sentinelRole] := hlast.mem
    cases mem_singleton.1 hmem
  · have heq : [queried 0 (cmd "ROLE") sentinelRole] = es ++ queried con (cmd "ROLE") reply :: es' := heq
    cases mem_singleton.1 (heq ▸ mem_append_left _ hmem)
    exact isSentinel_sentinelRole

theorem unverified_sentinel_connections :
    (∃ s', step Value ⟨fun _ _ => .ok (), fun _ _ => refusal, fun _ _ _ => sentinelRole⟩ twoSentinels start
        (.getSentinelMasters .sync) = some (.servers (.error (.server (.known .noPerm none))), s') ∧
      s'.cache .sync 0 = some 0 ∧
      s'.history = [connected (sentinelAt "a") 0 refusal, connected (sentinelAt "b") 1 refusal] ∧ ¬ IsSentinel refusal) ∧
    (∃ s', step Value
        ⟨fun _ info => if info.addr = (sentinelAt "a").addr then .error (.ofIo .connectionRefused) else .ok (),
          fun _ _ => sentinelRole, fun _ _ _ => sentinelRole⟩ twoSentinels start (.getSentinelClient .sync) =
        some (.client (.ok (sentinelAt "b")), s') ∧
      s'.cache .sync 0 = some 1 ∧
      s'.history = [connectFailed (sentinelAt "a") (.ofIo .connectionRefused),
        connected (sentinelAt "b") 1 sentinelRole, queried 1 (cmd "ROLE") sentinelRole]) ∧
    ∃ s', step Value
        ⟨fun _ _ => .ok (), fun _ _ => sentinelRole,
          fun history _ _ => if history.length = 1 then refusal else sentinelRole⟩ twoSentinels start
        (.getSentinelClient .sync) = some (.client (.ok (sentinelAt "b")), s') ∧
      s'.history = [connected (sentinelAt "a") 0 sentinelRole, queried 0 (cmd "ROLE") refusal,
        queried 0 (cmd "ROLE") sentinelRole] :=
  ⟨⟨_, rfl, rfl, rfl, fun ⟨_, h⟩ => by cases h⟩, ⟨_, rfl, rfl, rfl⟩, _, rfl, rfl⟩

end SentinelState

end RedisRs
