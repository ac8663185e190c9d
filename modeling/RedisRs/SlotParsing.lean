import RedisRs.SlotMap

/-!
# Reading the reply to `CLUSTER SLOTS`
-/

namespace RedisRs

open List

section Hosts

variable (addrOfAnsweringNode : String)

def internHost (hosts : List String) (hostname : String) : String × List String :=
  match hosts.find? (· = hostname) with
  | some host => (host, hosts)
  | none => (hostname, hostname :: hosts)

def tryToAddressWith (hosts : List String) (node : Value) : Option NodeAddress × List String :=
  match tryToAddress addrOfAnsweringNode node with
  | none => (none, hosts)
  | some addr =>
    let (host, hosts) := internHost hosts addr.host
    (some ⟨host, addr.port⟩, hosts)

def firstAddressWith : List String → List Value → Option (NodeAddress × List Value) × List String
  | hosts, [] => (none, hosts)
  | hosts, node :: nodes =>
    match tryToAddressWith addrOfAnsweringNode hosts node with
    | (some primary, hosts) => (some (primary, nodes), hosts)
    | (none, hosts) => firstAddressWith hosts nodes

def replicasWith : List String → List Value → List NodeAddress × List String
  | hosts, [] => ([], hosts)
  | hosts, node :: nodes =>
    let (replica, hosts) := tryToAddressWith addrOfAnsweringNode hosts node
    let (replicas, hosts) := replicasWith hosts nodes
    (replica.toList ++ replicas, hosts)

def parseEntryWith (hosts : List String) : List Value → Option SlotRange × List String
  | .int start :: .int stop :: node :: nodes =>
    match firstAddressWith addrOfAnsweringNode hosts (node :: nodes) with
    | (none, hosts) => (none, hosts)
    | (some (primary, rest), hosts) =>
      let (replicas, hosts) := replicasWith addrOfAnsweringNode hosts rest
      (some ⟨UInt16.ofInt start.toInt, UInt16.ofInt stop.toInt, primary, replicas⟩, hosts)
  | _ => (none, hosts)

def parseEntriesWith : List String → List Value → List SlotRange
  | hosts, .array item :: items =>
    let (range, hosts) := parseEntryWith addrOfAnsweringNode hosts item
    range.toList ++ parseEntriesWith hosts items
  | _, _ => []

def parseSlotsWith (rawSlotResp : Value) : RedisResult (List SlotRange) :=
  match rawSlotResp with
  | .array items => .ok (parseEntriesWith addrOfAnsweringNode [] items)
  | _ => .ok []

variable (hosts : List String) (nodes : List Value)

theorem internHost_fst (hostname : String) : (internHost hosts hostname).1 = hostname := by
  rw [internHost]
  cases h : hosts.find? (· = hostname) with
  | none => rfl
  | some host =>
    have hhost := find?_some h
    exact of_decide_eq_true hhost

theorem tryToAddressWith_fst (node : Value) :
    (tryToAddressWith addrOfAnsweringNode hosts node).1 = tryToAddress addrOfAnsweringNode node := by
  rw [tryToAddressWith]
  cases tryToAddress addrOfAnsweringNode node with
  | none => rfl
  | some addr => simp only [internHost_fst]

theorem firstAddressWith_fst :
    (firstAddressWith addrOfAnsweringNode hosts nodes).1 = firstAddress addrOfAnsweringNode nodes := by
  induction nodes generalizing hosts with
  | nil => rfl
  | cons node nodes ih =>
    have hfst := tryToAddressWith_fst addrOfAnsweringNode hosts node
    rw [firstAddressWith, firstAddress]
    rcases h : tryToAddressWith addrOfAnsweringNode hosts node with ⟨_ | primary, hosts'⟩ <;> rw [← hfst, h]
    exact ih hosts'

theorem replicasWith_fst :
    (replicasWith addrOfAnsweringNode hosts nodes).1 = nodes.filterMap (tryToAddress addrOfAnsweringNode) := by
  induction nodes generalizing hosts with
  | nil => rfl
  | cons node nodes ih =>
    simp only [replicasWith, filterMap_cons, tryToAddressWith_fst, ih]
    cases tryToAddress addrOfAnsweringNode node <;> rfl

theorem parseEntryWith_fst (item : List Value) :
    (parseEntryWith addrOfAnsweringNode hosts item).1 = parseEntry addrOfAnsweringNode item := by
  fun_cases parseEntry addrOfAnsweringNode item with
  | case1 start stop node nodes =>
    have hfst := firstAddressWith_fst addrOfAnsweringNode hosts (node :: nodes)
    rw [parseEntryWith, ← hfst]
    rcases firstAddressWith addrOfAnsweringNode hosts (node :: nodes) with ⟨_ | ⟨primary, rest⟩, hosts'⟩
    · rfl
    · simp only [replicasWith_fst]
      rfl
  | case2 item hother => rw [parseEntryWith.eq_2 _ _ _ hother]

theorem parseEntriesWith_eq (items : List Value) :
    parseEntriesWith addrOfAnsweringNode hosts items = parseEntries addrOfAnsweringNode items := by
  induction items generalizing hosts with
  | nil => rfl
  | cons item items ih =>
    cases item with
    | array item => simp only [parseEntriesWith, parseEntries, parseEntryWith_fst, ih]
    | _ => rfl

theorem parseSlotsWith_eq (rawSlotResp : Value) :
    parseSlotsWith addrOfAnsweringNode rawSlotResp = parseSlots rawSlotResp addrOfAnsweringNode := by
  cases rawSlotResp with
  | array items => exact congrArg Except.ok (parseEntriesWith_eq addrOfAnsweringNode [] items)
  | _ => rfl

end Hosts

structure RangeReading where
  start : Int64
  stop : Int64
  primary : String × Int64
  replicas : List (String × Int64)

namespace RangeReading

def toAddress (node : String × Int64) : NodeAddress := ⟨node.1, UInt16.ofInt node.2.toInt⟩

def toSlotRange (r : RangeReading) : SlotRange :=
  ⟨UInt16.ofInt r.start.toInt, UInt16.ofInt r.stop.toInt, toAddress r.primary, r.replicas.map toAddress⟩

def IsSlot (n : Int64) : Prop := 0 ≤ n.toInt ∧ n.toInt ≤ 16383

def IsPort (n : Int64) : Prop := 0 ≤ n.toInt ∧ n.toInt ≤ 65535

instance (n : Int64) : Decidable (IsSlot n) := inferInstanceAs (Decidable (_ ∧ _))

instance (n : Int64) : Decidable (IsPort n) := inferInstanceAs (Decidable (_ ∧ _))

/-- The numbers of the range are slots and ports. -/
def InRange (r : RangeReading) : Prop :=
  IsSlot r.start ∧ IsSlot r.stop ∧ ∀ node ∈ r.primary :: r.replicas, IsPort node.2

instance (r : RangeReading) : Decidable r.InRange := inferInstanceAs (Decidable (_ ∧ _ ∧ _))

def SameNode (node : String × Int64) (addr : NodeAddress) : Prop :=
  addr.host = node.1 ∧ (addr.port.toNat : Int) = node.2.toInt

/-- The range has the numbers that the entry tells. -/
structure SameNumbers (r : RangeReading) (range : SlotRange) : Prop where
  start : (range.start.toNat : Int) = r.start.toInt
  stop : (range.stop.toNat : Int) = r.stop.toInt
  primary : SameNode r.primary range.master
  replicas : Forall₂ SameNode r.replicas range.replicas

theorem toNat_ofInt {n : Int} (h : 0 ≤ n ∧ n ≤ 65535) : ((UInt16.ofInt n).toNat : Int) = n := by
  have hmod : (UInt16.ofInt n).toNat = (n % 2 ^ 16).toNat := by
    rw [UInt16.ofInt, UInt16.toNat_ofNat']
    omega
  omega

theorem sameNode_toAddress {node : String × Int64} (h : IsPort node.2) : SameNode node (toAddress node) :=
  ⟨rfl, toNat_ofInt h⟩

theorem sameNumbers_toSlotRange {r : RangeReading} (h : r.InRange) : r.SameNumbers r.toSlotRange where
  start := toNat_ofInt ⟨h.1.1, Int.le_trans h.1.2 (by decide)⟩
  stop := toNat_ofInt ⟨h.2.1.1, Int.le_trans h.2.1.2 (by decide)⟩
  primary := sameNode_toAddress (h.2.2 _ mem_cons_self)
  replicas := by
    rw [toSlotRange, forall₂_map_right_iff, forall₂_same]
    exact fun node hnode => sameNode_toAddress (h.2.2 node (mem_cons_of_mem _ hnode))

end RangeReading

section Entries

variable (addrOfAnsweringNode : String)

def readHost : Value → Option String
  | .bulkString ip =>
    if fromUtf8Lossy ip = "" || isWildcardAddress (fromUtf8Lossy ip) then some addrOfAnsweringNode
    else if fromUtf8Lossy ip = "?" then none
    else some (fromUtf8Lossy ip)
  | .nil => some addrOfAnsweringNode
  | _ => none

def readNode : Value → Option (String × Int64)
  | .array (host :: .int port :: _) =>
    ((readHost addrOfAnsweringNode host).filter (· ≠ "")).map fun hostname => (hostname, port)
  | _ => none

def readEntry : List Value → Option RangeReading
  | .int start :: .int stop :: nodes =>
    match nodes.filterMap (readNode addrOfAnsweringNode) with
    | [] => none
    | primary :: replicas => some ⟨start, stop, primary, replicas⟩
  | _ => none

theorem tryToAddress_array (host port : Value) (rest : List Value) :
    tryToAddress addrOfAnsweringNode (.array (host :: port :: rest)) =
      (readHost addrOfAnsweringNode host).bind fun hostname =>
        if hostname = "" then none
        else match port with
          | .int port => some ⟨hostname, UInt16.ofInt port.toInt⟩
          | _ => none := by
  cases host with
  | bulkString ip =>
    rw [tryToAddress, readHost]
    split_ifs <;> rfl
  | _ => rfl

theorem tryToAddress_eq (node : Value) :
    tryToAddress addrOfAnsweringNode node = (readNode addrOfAnsweringNode node).map RangeReading.toAddress := by
  cases node with
  | array fields =>
    rcases fields with _ | ⟨host, _ | ⟨port, rest⟩⟩
    · rfl
    · rfl
    · rw [tryToAddress_array]
      cases hread : readHost addrOfAnsweringNode host with
      | none => cases port <;> simp [readNode, hread]
      | some hostname =>
        by_cases hempty : hostname = ""
        · cases port <;> simp [readNode, hread, hempty]
        · cases port <;> simp [readNode, hread, hempty, RangeReading.toAddress]
  | _ => rfl

variable (nodes item entries : List Value)

theorem filterMap_tryToAddress :
    nodes.filterMap (tryToAddress addrOfAnsweringNode) =
      (nodes.filterMap (readNode addrOfAnsweringNode)).map RangeReading.toAddress := by
  rw [map_filterMap]
  exact filterMap_congr fun node _ => tryToAddress_eq addrOfAnsweringNode node

theorem filterMap_of_firstAddress :
    nodes.filterMap (tryToAddress addrOfAnsweringNode) =
      (firstAddress addrOfAnsweringNode nodes).elim [] fun found =>
        found.1 :: found.2.filterMap (tryToAddress addrOfAnsweringNode) := by
  induction nodes with
  | nil => rfl
  | cons node nodes ih =>
    rw [firstAddress, filterMap_cons]
    cases tryToAddress addrOfAnsweringNode node with
    | none => exact ih
    | some primary => rfl

theorem parseEntry_eq :
    parseEntry addrOfAnsweringNode item = (readEntry addrOfAnsweringNode item).map RangeReading.toSlotRange := by
  fun_cases parseEntry addrOfAnsweringNode item with
  | case1 start stop node nodes =>
    have hfirst := filterMap_of_firstAddress addrOfAnsweringNode (node :: nodes)
    rw [filterMap_tryToAddress] at hfirst
    rw [readEntry]
    rcases h : firstAddress addrOfAnsweringNode (node :: nodes) with _ | ⟨primary, rest⟩ <;> rw [h] at hfirst
    · rw [map_eq_nil_iff.1 hfirst]
      rfl
    · obtain ⟨primary', replicas, hread, rfl, hrepls⟩ := map_eq_cons_iff.1 hfirst
      rw [hread]
      simp [RangeReading.toSlotRange, hrepls]
  | case2 item hother =>
    fun_cases readEntry addrOfAnsweringNode item with
    | case1 start stop nodes hnil => rfl
    | case2 start stop nodes primary replicas hnodes =>
      rcases nodes with _ | ⟨node, nodes⟩
      · cases hnodes
      · exact (hother start stop node nodes rfl).elim
    | case3 item hother' => rfl

/-- No entry that gives something comes after one that is no array. -/
def NothingHidden (entries : List Value) : Prop :=
  ∀ before bad after, entries = before ++ bad :: after → (∀ item, bad ≠ .array item) →
    ∀ entry ∈ after, parseEntries addrOfAnsweringNode [entry] = []

def exactEntry : Value → List SlotRange
  | .array item => (((readEntry addrOfAnsweringNode item).filter fun r => r.InRange).map RangeReading.toSlotRange).toList
  | _ => []

/-- The numbers an entry tells are slots and ports. -/
def TellsInRange (entry : Value) : Prop :=
  ∀ item r, entry = .array item → readEntry addrOfAnsweringNode item = some r → r.InRange

theorem parseEntries_singleton :
    parseEntries addrOfAnsweringNode [.array item] = (parseEntry addrOfAnsweringNode item).toList := append_nil _

theorem nothingHidden_array_cons :
    NothingHidden addrOfAnsweringNode (.array item :: entries) ↔ NothingHidden addrOfAnsweringNode entries := by
  constructor
  · rintro h before bad after rfl
    exact h (.array item :: before) bad after rfl
  · intro h before bad after hents hbad
    rcases before with _ | ⟨first, before⟩
    · exact absurd (List.cons.inj hents).1.symm (hbad item)
    · exact h before bad after (List.cons.inj hents).2 hbad

theorem nothingHidden_bad_cons {bad : Value} (hbad : ∀ item, bad ≠ .array item) (entries : List Value) :
    NothingHidden addrOfAnsweringNode (bad :: entries) ↔
      ∀ entry ∈ entries, parseEntries addrOfAnsweringNode [entry] = [] := by
  constructor
  · intro h
    exact h [] bad entries rfl hbad
  · rintro h before bad' after hents - entry hent
    rcases before with _ | ⟨first, before⟩
    · exact h entry ((List.cons.inj hents).2 ▸ hent)
    · rw [(List.cons.inj hents).2] at h
      exact h entry (mem_append_right _ (mem_cons_of_mem _ hent))

theorem parseEntries_eq_flatMap_iff :
    parseEntries addrOfAnsweringNode entries = entries.flatMap (fun entry => parseEntries addrOfAnsweringNode [entry]) ↔
      NothingHidden addrOfAnsweringNode entries := by
  induction entries with
  | nil => exact ⟨fun _ before bad after h => (by simp at h), fun _ => rfl⟩
  | cons entry entries ih =>
    by_cases harray : ∃ item, entry = .array item
    · obtain ⟨item, rfl⟩ := harray
      rw [nothingHidden_array_cons, ← ih, flatMap_cons, parseEntries_singleton, parseEntries, append_cancel_left_eq]
    · have hbad : ∀ item, entry ≠ .array item := fun item h => harray ⟨item, h⟩
      have hnil : ∀ rest, parseEntries addrOfAnsweringNode (entry :: rest) = [] := by
        intro rest
        cases entry with
        | array item => exact absurd rfl (hbad item)
        | _ => rfl
      rw [nothingHidden_bad_cons _ hbad, flatMap_cons, hnil, hnil, nil_append, eq_comm, flatMap_eq_nil_iff]

theorem parseEntries_eq_exactEntry_iff (entry : Value) :
    parseEntries addrOfAnsweringNode [entry] = exactEntry addrOfAnsweringNode entry ↔
      TellsInRange addrOfAnsweringNode entry := by
  by_cases harray : ∃ item, entry = .array item
  · obtain ⟨item, rfl⟩ := harray
    rw [parseEntries_singleton, parseEntry_eq, exactEntry]
    cases hread : readEntry addrOfAnsweringNode item with
    | none =>
      refine iff_of_true rfl ?_
      rintro item' r heq hr
      cases heq
      rw [hread] at hr
      cases hr
    | some r =>
      have htells : TellsInRange addrOfAnsweringNode (.array item) ↔ r.InRange := by
        constructor
        · intro h
          exact h item r rfl hread
        · rintro h item' r' heq hr
          cases heq
          rw [hread] at hr
          cases hr
          exact h
      rw [htells]
      by_cases hrange : r.InRange <;> simp [Option.filter, hrange]
  · refine iff_of_true ?_ fun item r h => absurd ⟨item, h⟩ harray
    cases entry with
    | array item => exact absurd ⟨item, rfl⟩ harray
    | _ => rfl

end Entries

/-- The entries are parsed one by one exactly when no entry that gives something comes after one that is no array; an entry
is parsed as it should exactly when its numbers are slots and ports, and then they are the numbers of the range. The set of
host names makes no difference. -/
theorem parseSlots_exact_iff (addrOfAnsweringNode : String) (entries : List Value) :
    (parseSlots (.array entries) addrOfAnsweringNode =
        .ok (entries.flatMap fun entry => parseEntries addrOfAnsweringNode [entry]) ↔
      NothingHidden addrOfAnsweringNode entries) ∧
    (∀ entry, parseSlots (.array [entry]) addrOfAnsweringNode = .ok (exactEntry addrOfAnsweringNode entry) ↔
      TellsInRange addrOfAnsweringNode entry) ∧
    (NothingHidden addrOfAnsweringNode entries → (∀ entry ∈ entries, TellsInRange addrOfAnsweringNode entry) →
      parseSlots (.array entries) addrOfAnsweringNode = .ok (entries.flatMap (exactEntry addrOfAnsweringNode))) ∧
    (∀ item r, readEntry addrOfAnsweringNode item = some r →
      (r.InRange → exactEntry addrOfAnsweringNode (.array item) = [r.toSlotRange] ∧ r.SameNumbers r.toSlotRange) ∧
      (¬ r.InRange → exactEntry addrOfAnsweringNode (.array item) = [] ∧
        parseSlots (.array [.array item]) addrOfAnsweringNode = .ok [r.toSlotRange])) ∧
    parseSlotsWith addrOfAnsweringNode (.array entries) = parseSlots (.array entries) addrOfAnsweringNode := by
  have hok : ∀ {l l' : List SlotRange}, (.ok l : RedisResult (List SlotRange)) = .ok l' ↔ l = l' :=
    ⟨Except.ok.inj, congrArg _⟩
  refine ⟨hok.trans (parseEntries_eq_flatMap_iff addrOfAnsweringNode entries),
    fun entry => hok.trans (parseEntries_eq_exactEntry_iff addrOfAnsweringNode entry), fun hhidden hrange => ?_,
    fun item r hread => ⟨fun hrange => ⟨?_, RangeReading.sameNumbers_toSlotRange hrange⟩, fun hrange => ⟨?_, ?_⟩⟩,
    parseSlotsWith_eq addrOfAnsweringNode _⟩
  · refine hok.2 (((parseEntries_eq_flatMap_iff addrOfAnsweringNode entries).2 hhidden).trans ?_)
    exact flatMap_congr fun entry hentry =>
      (parseEntries_eq_exactEntry_iff addrOfAnsweringNode entry).2 (hrange entry hentry)
  · simp [exactEntry, hread, hrange]
  · simp [exactEntry, hread, hrange]
  · refine hok.2 ((parseEntries_singleton addrOfAnsweringNode item).trans ?_)
    rw [parseEntry_eq, hread]
    rfl

theorem parseSlots_inexact :
    parseSlots (.array [.nil, .array [.int 0, .int 100, .array [.bulkString (bytesOf "host"), .int 6379]]]) "me" =
      .ok [] ∧
    parseSlots (.array [.array [.int 0, .int 100, .array [.bulkString (bytesOf "host"), .int 6379]]]) "me" =
      .ok [⟨0, 100, ⟨"host", 6379⟩, []⟩] ∧
    parseSlots (.array [.array [.int 65537, .int 20000, .array [.bulkString (bytesOf "host"), .int 70000]]]) "me" =
      .ok [⟨1, 20000, ⟨"host", 4464⟩, []⟩] := by
  exact ⟨rfl, congrArg Except.ok (by decide +kernel), congrArg Except.ok (by decide +kernel)⟩

theorem parseSlots_exact_alone :
    parseSlots (.array [.array [.int 0, .int 100, .array [.bulkString (bytesOf "host"), .int 6379]]]) "me" =
      .ok ([.array [.int 0, .int 100, .array [.bulkString (bytesOf "host"), .int 6379]]].flatMap (exactEntry "me")) := by
  have hread : readEntry "me" [.int 0, .int 100, .array [.bulkString (bytesOf "host"), .int 6379]] =
      some ⟨0, 100, ("host", 6379), []⟩ := by
    have hhost : readHost "me" (.bulkString (bytesOf "host")) = some "host" := by decide +kernel
    simp [readEntry, readNode, hhost]
  refine (parseSlots_exact_iff "me" _).2.2.1 ((nothingHidden_array_cons _ _ _).2 fun before bad after h => ?_) ?_
  · simp at h
  · intro entry hentry item r heq hr
    cases mem_singleton.1 hentry
    cases heq
    rw [hread] at hr
    cases hr
    decide

end RedisRs
