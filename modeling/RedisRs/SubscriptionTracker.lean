import Mathlib.Data.Finset.Lattice.Lemmas
import RedisRs.ClusterRouting
import RedisRs.PackedCommands
import RedisRs.Run

/-!
# Subscriptions that are kept for a reconnection
-/

namespace RedisRs

open Function List

inductive SubscriptionAction
  | subscribe
  | unsubscribe
  | pSubscribe
  | pUnsubscribe
  | sSubscribe
  | sunsubscribe
deriving DecidableEq, Repr

inductive SubscriptionKind
  | channel
  | pattern
  | shardChannel
deriving DecidableEq, Repr

namespace SubscriptionAction

def additive : SubscriptionAction → Bool
  | subscribe | pSubscribe | sSubscribe => true
  | unsubscribe | pUnsubscribe | sunsubscribe => false

def kind : SubscriptionAction → SubscriptionKind
  | subscribe | unsubscribe => .channel
  | pSubscribe | pUnsubscribe => .pattern
  | sSubscribe | sunsubscribe => .shardChannel

end SubscriptionAction

structure SubscriptionTracker where
  subscriptions : Finset Bytes
  sSubscriptions : Finset Bytes
  pSubscriptions : Finset Bytes
deriving DecidableEq

def Arg.simple? : Arg Bytes → Option Bytes
  | .simple arg => some arg
  | .cursor => none

namespace SubscriptionTracker

def new : SubscriptionTracker := ⟨∅, ∅, ∅⟩

def toRequest (c : Cmd) : Option (SubscriptionAction × List Bytes) :=
  match c.argsIter with
  | .simple firstArg :: args =>
    if (fromUtf8 firstArg).isNone then none
    else
      let args := args.filterMap Arg.simple?
      if eqIgnoreAsciiCase firstArg (bytesOf "SUBSCRIBE") then some (.subscribe, args)
      else if eqIgnoreAsciiCase firstArg (bytesOf "PSUBSCRIBE") then some (.pSubscribe, args)
      else if eqIgnoreAsciiCase firstArg (bytesOf "SSUBSCRIBE") then some (.sSubscribe, args)
      else if eqIgnoreAsciiCase firstArg (bytesOf "UNSUBSCRIBE") then some (.unsubscribe, args)
      else if eqIgnoreAsciiCase firstArg (bytesOf "PUNSUBSCRIBE") then some (.pUnsubscribe, args)
      else if eqIgnoreAsciiCase firstArg (bytesOf "SUNSUBSCRIBE") then some (.sunsubscribe, args)
      else none
  | _ => none

def set (t : SubscriptionTracker) : SubscriptionKind → Finset Bytes
  | .channel => t.subscriptions
  | .pattern => t.pSubscriptions
  | .shardChannel => t.sSubscriptions

def withSet (t : SubscriptionTracker) : SubscriptionKind → Finset Bytes → SubscriptionTracker
  | .channel, set => { t with subscriptions := set }
  | .pattern, set => { t with pSubscriptions := set }
  | .shardChannel, set => { t with sSubscriptions := set }

def updateWithRequest (t : SubscriptionTracker) (action : SubscriptionAction) (args : List Bytes) : SubscriptionTracker :=
  let set := t.set action.kind
  t.withSet action.kind
    (if action.additive then args.foldl (fun set sub => insert sub set) set
    else args.foldl (fun set sub => set.erase sub) set)

def updateWithCmd (t : SubscriptionTracker) (c : Cmd) : SubscriptionTracker :=
  match toRequest c with
  | some (action, args) => t.updateWithRequest action args
  | none => t

@[simp] theorem set_withSet (t : SubscriptionTracker) (kind : SubscriptionKind) (s : Finset Bytes) :
    (t.withSet kind s).set = update t.set kind s := by
  funext k
  cases kind <;> cases k <;> rfl

theorem set_updateWithRequest (t : SubscriptionTracker) (action : SubscriptionAction) (args : List Bytes) :
    (t.updateWithRequest action args).set = update t.set action.kind
      (if action.additive then t.set action.kind ∪ args.toFinset else t.set action.kind \ args.toFinset) := by
  have hins : ∀ s : Finset Bytes, args.foldl (fun set sub => insert sub set) s = s ∪ args.toFinset := by
    induction args with
    | nil => intro s; simp
    | cons a args ih =>
      intro s
      rw [foldl_cons, ih, toFinset_cons, Finset.insert_union, Finset.union_insert]
  have herase : ∀ s : Finset Bytes, args.foldl (fun set sub => set.erase sub) s = s \ args.toFinset := by
    clear hins
    induction args with
    | nil => intro s; simp
    | cons a args ih =>
      intro s
      rw [foldl_cons, ih, toFinset_cons, Finset.erase_sdiff_comm, Finset.sdiff_insert]
  simp only [updateWithRequest, set_withSet, hins, herase]

end SubscriptionTracker

inductive ServerCommand
  | subscribe (kind : SubscriptionKind) (channels : List Bytes)
  | unsubscribe (kind : SubscriptionKind) (channels : List Bytes)
  | reset (args : List Bytes)
  | other
deriving DecidableEq, Repr

def serverCommands : List (String × (List Bytes → ServerCommand)) :=
  [("SUBSCRIBE", .subscribe .channel), ("PSUBSCRIBE", .subscribe .pattern), ("SSUBSCRIBE", .subscribe .shardChannel),
    ("UNSUBSCRIBE", .unsubscribe .channel), ("PUNSUBSCRIBE", .unsubscribe .pattern),
    ("SUNSUBSCRIBE", .unsubscribe .shardChannel), ("RESET", .reset)]

def serverCommand : List Bytes → ServerCommand
  | [] => .other
  | name :: args => match serverCommands.find? fun entry => eqIgnoreAsciiCase name (bytesOf entry.1) with
    | some entry => entry.2 args
    | none => .other

abbrev ServerSubscriptions := SubscriptionKind → Finset Bytes

def ServerSubscriptions.apply (s : ServerSubscriptions) : ServerCommand → Option ServerSubscriptions
  | .subscribe _ [] => none
  | .subscribe kind channels => some (update s kind (s kind ∪ channels.toFinset))
  | .unsubscribe kind [] => some (update s kind ∅)
  | .unsubscribe kind channels => some (update s kind (s kind \ channels.toFinset))
  | .reset [] => some fun _ => ∅
  | .reset _ => none
  | .other => some s

def Cmd.words (c : Cmd) : List Bytes := c.argsIter.map (Arg.bytes (c.cursor.getD 0))

structure Subscribed where
  tracker : SubscriptionTracker
  server : ServerSubscriptions

namespace Subscribed

def init : Subscribed := ⟨.new, fun _ => ∅⟩

def step (s : Subscribed) (c : Cmd) : Option (Unit × Subscribed) :=
  (s.server.apply (serverCommand c.words)).map fun server => ((), ⟨s.tracker.updateWithCmd c, server⟩)

/-- The tracker has what the server has. -/
def Mirrors (s : Subscribed) : Prop := ∀ kind, s.tracker.set kind = s.server kind

end Subscribed

def Cmd.simpleArgs (c : Cmd) : List Bytes := (c.argsIter.drop 1).filterMap Arg.simple?

/-- The command names all that it changes, in arguments that are no cursors. -/
def SubscriptionTracker.Tracked (t : SubscriptionTracker) (c : Cmd) : Prop :=
  match serverCommand c.words with
  | .subscribe kind channels => ∀ channel ∈ channels, channel ∈ c.simpleArgs ∨ channel ∈ t.set kind
  | .unsubscribe kind [] => t.set kind = ∅
  | .unsubscribe kind channels => ∀ channel ∈ channels, channel ∈ c.simpleArgs ∨ channel ∉ t.set kind
  | .reset _ => ∀ kind, t.set kind = ∅
  | .other => True

theorem asciiUppercase_lt {b : UInt8} (h : (if 97 ≤ b ∧ b ≤ 122 then b - 32 else b) < 128) : b < 128 := by
  rw [UInt8.lt_iff_toNat_lt] at h ⊢
  split at h
  · rename_i hletter
    have hle := UInt8.le_iff_toNat_le.1 hletter.2
    exact Nat.lt_of_le_of_lt hle (by decide)
  · exact h

theorem lt_of_eqIgnoreAsciiCase {a b : Bytes} (h : eqIgnoreAsciiCase a b = true) (hb : ∀ x ∈ asciiUppercase b, x < 128) :
    ∀ x ∈ a, x < 128 := by
  intro x hx
  have heq : asciiUppercase a = asciiUppercase b := of_decide_eq_true h
  have hmem : (if 97 ≤ x ∧ x ≤ 122 then x - 32 else x) ∈ asciiUppercase a :=
    mem_map_of_mem (f := fun b => if 97 ≤ b ∧ b ≤ 122 then b - 32 else b) hx
  rw [heq] at hmem
  exact asciiUppercase_lt (hb _ hmem)

def SubscriptionAction.serverCommand (action : SubscriptionAction) (channels : List Bytes) : ServerCommand :=
  if action.additive then .subscribe action.kind channels else .unsubscribe action.kind channels

variable {entry : String × (List Bytes → ServerCommand)} {S : Finset Bytes} {name : Bytes}

theorem isNone_fromUtf8_of_name (hent : entry ∈ serverCommands)
    (h : eqIgnoreAsciiCase name (bytesOf entry.1) = true) : (fromUtf8 name).isNone = false := by
  have hascii : ∀ entry ∈ serverCommands, ∀ x ∈ asciiUppercase (bytesOf entry.1), x < 128 := by decide +kernel
  rw [← Option.not_isSome, fromUtf8_of_ascii (lt_of_eqIgnoreAsciiCase h (hascii entry hent))]
  rfl

theorem not_eqIgnoreAsciiCase_itoa (n : Nat) (hent : entry ∈ serverCommands) :
    eqIgnoreAsciiCase (itoa n) (bytesOf entry.1) = false := by
  have hletter : ∀ entry ∈ serverCommands, ∃ b ∈ asciiUppercase (bytesOf entry.1), 57 < b.toNat := by decide +kernel
  obtain ⟨b, hb, hlt⟩ := hletter entry hent
  refine decide_eq_false fun heq => ?_
  rw [← heq] at hb
  obtain ⟨x, hx, rfl⟩ := mem_map.1 hb
  have hdigit := mem_itoa hx
  have hsmall : ¬ (97 ≤ x ∧ x ≤ 122) := fun hx' => by
    have hle := UInt8.le_iff_toNat_le.1 hx'.1
    have h97 : (97 : UInt8).toNat = 97 := rfl
    omega
  rw [if_neg hsmall] at hlt
  omega

theorem serverCommand_eq_other (h : ∀ entry ∈ serverCommands, eqIgnoreAsciiCase name (bytesOf entry.1) = false)
    (args : List Bytes) : serverCommand (name :: args) = .other := by
  have hnone : (serverCommands.find? fun entry => eqIgnoreAsciiCase name (bytesOf entry.1)) = none := by
    refine find?_eq_none.2 fun entry hent => ?_
    rw [h entry hent]
    exact Bool.false_ne_true
  rw [serverCommand, hnone]

theorem serverCommand_of_toRequest {c : Cmd} {action : SubscriptionAction} {args : List Bytes}
    (h : SubscriptionTracker.toRequest c = some (action, args)) :
    serverCommand c.words = action.serverCommand (c.words.drop 1) ∧ args = c.simpleArgs := by
  rcases hargs : c.argsIter with _ | ⟨name | -, rest⟩
  · simp [SubscriptionTracker.toRequest, hargs] at h
  · simp only [SubscriptionTracker.toRequest, hargs] at h
    simp only [Cmd.words, Cmd.simpleArgs, hargs, map_cons, drop_one, tail_cons, Arg.bytes, serverCommand,
      serverCommands, find?_cons]
    split_ifs at h <;> cases h <;>
      simp_all [SubscriptionAction.serverCommand, SubscriptionAction.additive, SubscriptionAction.kind]
  · simp [SubscriptionTracker.toRequest, hargs] at h

theorem serverCommand_of_toRequest_none {c : Cmd} (h : SubscriptionTracker.toRequest c = none) :
    serverCommand c.words = .other ∨ ∃ args, serverCommand c.words = .reset args := by
  rcases hargs : c.argsIter with _ | ⟨name | -, rest⟩
  · exact .inl (by rw [Cmd.words, hargs]; rfl)
  · rw [Cmd.words, hargs, map_cons, Arg.bytes]
    rcases hfind : serverCommands.find? fun entry => eqIgnoreAsciiCase name (bytesOf entry.1) with _ | entry
    · exact .inl (by rw [serverCommand, hfind])
    · have hname := find?_some hfind
      have hutf := isNone_fromUtf8_of_name (mem_of_find?_eq_some hfind) hname
      have hent := mem_of_find?_eq_some hfind
      simp only [SubscriptionTracker.toRequest, hargs, hutf, Bool.false_eq_true, if_false] at h
      split_ifs at h with h₁ h₂ h₃ h₄ h₅ h₆
      -- it is none of the six, so it is the last one
      refine .inr ⟨rest.map (Arg.bytes (c.cursor.getD 0)), ?_⟩
      rw [serverCommand, hfind]
      simp only [serverCommands, mem_cons, not_mem_nil, or_false] at hent
      rcases hent with rfl | rfl | rfl | rfl | rfl | rfl | rfl
      · exact absurd hname h₁
      · exact absurd hname h₂
      · exact absurd hname h₃
      · exact absurd hname h₄
      · exact absurd hname h₅
      · exact absurd hname h₆
      · rfl
  · refine .inl ?_
    rw [Cmd.words, hargs]
    exact serverCommand_eq_other (fun entry => not_eqIgnoreAsciiCase_itoa _) _

theorem union_toFinset_eq_iff {l l' : List Bytes} (h : ∀ x ∈ l, x ∈ l') :
    S ∪ l.toFinset = S ∪ l'.toFinset ↔ ∀ x ∈ l', x ∈ l ∨ x ∈ S := by
  rw [Finset.ext_iff]
  simp only [Finset.mem_union, mem_toFinset]
  exact ⟨fun heq x hx => ((heq x).2 (.inr hx)).symm, fun hall x => ⟨fun hx => hx.imp_right (h x),
    fun hx => hx.elim .inl fun hx => (hall x hx).symm⟩⟩

theorem sdiff_toFinset_eq_iff {l l' : List Bytes} (h : ∀ x ∈ l, x ∈ l') :
    S \ l.toFinset = S \ l'.toFinset ↔ ∀ x ∈ l', x ∈ l ∨ x ∉ S := by
  rw [Finset.ext_iff]
  simp only [Finset.mem_sdiff, mem_toFinset]
  constructor
  · intro heq x hx
    by_cases hl : x ∈ l
    · exact .inl hl
    · exact .inr fun hS => ((heq x).1 ⟨hS, hl⟩).2 hx
  · intro hall x
    refine and_congr_right fun hS => not_congr ⟨h x, fun hx => ?_⟩
    exact (hall x hx).resolve_right fun hnot => hnot hS

namespace Subscribed

variable {s s' : Subscribed} {c : Cmd}

theorem mirrors_iff : s.Mirrors ↔ s.tracker.set = s.server := funext_iff.symm

theorem mem_simpleArgs {channel : Bytes} (h : channel ∈ c.simpleArgs) : channel ∈ c.words.drop 1 := by
  obtain ⟨arg, harg, hsim⟩ := mem_filterMap.1 h
  rw [Cmd.words, ← map_drop]
  cases arg with
  | simple val => exact mem_map.2 ⟨_, harg, Option.some.inj hsim⟩
  | cursor => exact absurd hsim (by simp [Arg.simple?])

theorem mirrors_none_iff {server : ServerSubscriptions} (hs : s.Mirrors) (hreq : SubscriptionTracker.toRequest c = none)
    (hsrv : s.server.apply (serverCommand c.words) = some server) :
    Mirrors ⟨s.tracker.updateWithCmd c, server⟩ ↔ s.tracker.Tracked c := by
  have hsame : s.tracker.updateWithCmd c = s.tracker := by
    rw [SubscriptionTracker.updateWithCmd, hreq]
  rw [hsame]
  rcases serverCommand_of_toRequest_none hreq with hother | ⟨_ | ⟨arg, args⟩, hreset⟩
  · rw [hother] at hsrv
    obtain rfl : s.server = server := Option.some.inj hsrv
    simp only [SubscriptionTracker.Tracked, hother, iff_true]
    exact hs
  · rw [hreset] at hsrv
    obtain rfl : (fun _ => ∅) = server := Option.some.inj hsrv
    simp only [SubscriptionTracker.Tracked, hreset]
    exact Iff.rfl
  · rw [hreset] at hsrv
    exact absurd hsrv (by simp [ServerSubscriptions.apply])

theorem mirrors_some_iff {server : ServerSubscriptions} {action : SubscriptionAction} {args : List Bytes} (hs : s.Mirrors)
    (hreq : SubscriptionTracker.toRequest c = some (action, args))
    (hsrv : s.server.apply (serverCommand c.words) = some server) :
    Mirrors ⟨s.tracker.updateWithCmd c, server⟩ ↔ s.tracker.Tracked c := by
  obtain ⟨hcmd, rfl⟩ := serverCommand_of_toRequest hreq
  have hupdate : s.tracker.updateWithCmd c = s.tracker.updateWithRequest action c.simpleArgs := by
    rw [SubscriptionTracker.updateWithCmd, hreq]
  have hsub : ∀ x ∈ c.simpleArgs, x ∈ c.words.drop 1 := fun _ => mem_simpleArgs
  rw [mirrors_iff] at hs ⊢
  rw [hupdate]
  simp only [SubscriptionTracker.set_updateWithRequest]
  rw [hcmd, ← hs] at hsrv
  simp only [SubscriptionTracker.Tracked, hcmd]
  generalize c.words.drop 1 = channels at hsub hsrv
  have hinj := update_injective s.tracker.set action.kind
  cases hadd : action.additive with
  | true =>
    simp only [SubscriptionAction.serverCommand, hadd, if_true] at hsrv ⊢
    rcases channels with _ | ⟨channel, channels⟩
    · exact absurd hsrv (by simp [ServerSubscriptions.apply])
    · obtain rfl := Option.some.inj hsrv
      rw [hinj.eq_iff]
      exact union_toFinset_eq_iff hsub
  | false =>
    simp only [SubscriptionAction.serverCommand, hadd, Bool.false_eq_true, if_false] at hsrv ⊢
    rcases channels with _ | ⟨channel, channels⟩
    · -- nothing is named, and everything is dropped
      have hnil : c.simpleArgs = [] := eq_nil_iff_forall_not_mem.2 fun x hx => not_mem_nil (hsub x hx)
      obtain rfl := Option.some.inj hsrv
      rw [hinj.eq_iff, hnil, toFinset_nil, Finset.sdiff_empty]
    · obtain rfl := Option.some.inj hsrv
      rw [hinj.eq_iff]
      exact sdiff_toFinset_eq_iff hsub

theorem mirrors_step_iff (hs : s.Mirrors) (hstep : s.step c = some ((), s')) : s'.Mirrors ↔ s.tracker.Tracked c := by
  obtain ⟨server, hsrv, hs'⟩ := Option.map_eq_some_iff.1 hstep
  obtain rfl : ⟨s.tracker.updateWithCmd c, server⟩ = s' := (Prod.mk.inj hs').2
  rcases hreq : SubscriptionTracker.toRequest c with _ | ⟨action, args⟩
  · exact mirrors_none_iff hs hreq hsrv
  · exact mirrors_some_iff hs hreq hsrv

/-- In a run of accepted commands the tracker is like the server in every state, exactly if every command is `Tracked`. -/
theorem mirrors_along_iff (cmds : List Cmd) :
    Run.Along step (fun _ _ _ s' => s'.Mirrors) init cmds ↔
      Run.Along step (fun s c _ _ => s.tracker.Tracked c) init cmds := by
  have hinit : init.Mirrors := fun kind => by cases kind <;> rfl
  refine Run.along_iff (I := Mirrors) (fun s c _ s' hs hstep => ?_) hinit cmds
  exact ⟨mirrors_step_iff hs hstep, fun h => h⟩

theorem unsubscribe_keeps_channel :
    ∃ s, Run.run step init [Cmd.ofArgs [bytesOf "SUBSCRIBE", bytesOf "a"], Cmd.ofArgs [bytesOf "UNSUBSCRIBE"]] =
        some ([(), ()], s) ∧ s.tracker.subscriptions = {bytesOf "a"} ∧ s.server .channel = ∅ := by
  refine ⟨⟨⟨{bytesOf "a"}, ∅, ∅⟩, update (update (fun _ => ∅) .channel {bytesOf "a"}) .channel ∅⟩, ?_, rfl,
    rfl⟩
  rfl

end Subscribed

end RedisRs
