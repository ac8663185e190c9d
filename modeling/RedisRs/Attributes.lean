import RedisRs.EntryPoints

/-!
# Attributes around the values of a reply
-/

namespace RedisRs

open List FromRedisValue FromRedisTuple ParsingError

namespace Value

def isAttribute : Value → Bool
  | .attribute _ _ => true
  | _ => false

def isContainer : Value → Bool
  | .array _ | .set _ | .map _ | .attribute _ _ | .push _ _ => true
  | _ => false

theorem getInnerValue_of_not_attribute {v : Value} (h : v.isAttribute = false) : getInnerValue v = v := by
  cases v <;> first | rfl | cases h

end Value

def Failed {α : Type} (r : ParseResult α) : Prop := r.toOption = none

def Rejected (α : Type) [FromRedisValue α] (v : Value) : Prop := Failed (fromRedisValue v : ParseResult α)

def RejectedItems (α : Type) [FromRedisTuple α] (vs : List Value) : Prop := Failed (fromItems vs : ParseResult α)

structure Alikeness where
  one : Value → Value → Prop
  many : List Value → List Value → Prop

/-- The sequences are alike at each position, or both are refused for one of their positions. -/
inductive EachAlike {ι : Type} (F : ι → Prop) (R : ι → ι → Prop) (as bs : List ι) : Prop
  | alike (h : Forall₂ R as bs)
  | refused (ha : ∃ a ∈ as, F a) (hb : ∃ b ∈ bs, F b)

def Alikeness.each (α : Type) [FromRedisValue α] (R : Value → Value → Prop) : Alikeness := ⟨R, EachAlike (Rejected α) R⟩

/-- The values are related once attributes are taken off. -/
def Inner (R : Value → Value → Prop) (v w : Value) : Prop := R (getInnerValue v) (getInnerValue w)

/-- What a scalar cannot tell apart. -/
inductive ScalarAlike : Value → Value → Prop
  | same (v : Value) : ScalarAlike v v
  | containers {v w : Value} (hv : v.isContainer = true) (hw : w.isContainer = true) : ScalarAlike v w

section

variable (F F' : Value → Prop) (R R' : Value → Value → Prop) (Fs : List Value → Prop)
  (Rs : List Value → List Value → Prop)

/-- What `Option` cannot tell apart. -/
inductive OptionAlike : Value → Value → Prop
  | nil : OptionAlike .nil .nil
  | some {v w : Value} (hv : v ≠ .nil) (hw : w ≠ .nil) (h : R v w) : OptionAlike v w

def NotVec (v : Value) : Prop := match v with
  | .bulkString _ | .array _ | .set _ | .map _ | .nil => False
  | _ => True

/-- What `Vec` cannot tell apart. -/
inductive VecAlike : Value → Value → Prop
  | nil : VecAlike .nil .nil
  | bulkString (bytes : Bytes) : VecAlike (.bulkString bytes) (.bulkString bytes)
  | array {vs ws : List Value} (h : Rs vs ws) : VecAlike (.array vs) (.array ws)
  | set {vs ws : List Value} (h : Rs vs ws) : VecAlike (.set vs) (.set ws)
  | map {ps qs : List (Value × Value)}
      (h : EachAlike (fun p => F (.map [p])) (fun p q => R (.map [p]) (.map [q])) ps qs) : VecAlike (.map ps) (.map qs)
  | other {v w : Value} (hv : NotVec v) (hw : NotVec w) : VecAlike v w

def NotArray (v : Value) : Prop := match v with
  | .bulkString _ | .array _ | .nil => False
  | _ => True

/-- What an array cannot tell apart. -/
inductive ArrayAlike : Value → Value → Prop
  | nil : ArrayAlike .nil .nil
  | bulkString (bytes : Bytes) : ArrayAlike (.bulkString bytes) (.bulkString bytes)
  | array {vs ws : List Value} (h : Rs vs ws) : ArrayAlike (.array vs) (.array ws)
  | other {v w : Value} (hv : NotArray v) (hw : NotArray w) : ArrayAlike v w

def NotTuple (v : Value) : Prop := match v with
  | .array _ | .set _ | .map _ => False
  | _ => True

/-- What the components of a tuple cannot tell apart. -/
inductive ItemsAlike : List Value → List Value → Prop
  | nil : ItemsAlike [] []
  | cons {v w : Value} {vs ws : List Value} (h : R v w) (hs : Rs vs ws) : ItemsAlike (v :: vs) (w :: ws)
  | refused {vs ws : List Value} (hlen : vs.length = ws.length) (hv : Fs vs) (hw : Fs ws) : ItemsAlike vs ws

def flatten (ps : List (Value × Value)) : List Value := ps.flatMap fun (a, b) => [a, b]

/-- What a tuple cannot tell apart. -/
inductive TupleAlike : Value → Value → Prop
  | array {vs ws : List Value} (h : Rs vs ws) : TupleAlike (.array vs) (.array ws)
  | set {vs ws : List Value} (h : Rs vs ws) : TupleAlike (.set vs) (.set ws)
  | map {ps qs : List (Value × Value)} (h : Rs (flatten ps) (flatten qs)) : TupleAlike (.map ps) (.map qs)
  | other {v w : Value} (hv : NotTuple v) (hw : NotTuple w) : TupleAlike v w

/-- What a list of tuples of `n` cannot tell apart: each item is a tuple, or the components follow one another. -/
inductive TupleListAlike (n : Nat) : List Value → List Value → Prop
  | nested {vs ws : List Value} (hv : vs.all (Value.isCollectionOfLen n) = true)
      (hw : ws.all (Value.isCollectionOfLen n) = true)
      (h : EachAlike F (Inner (TupleAlike Rs)) vs ws) : TupleListAlike n vs ws
  | flat {vs ws : List Value} (hv : vs.all (Value.isCollectionOfLen n) = false)
      (hw : ws.all (Value.isCollectionOfLen n) = false) (h : EachAlike Fs Rs (chunks n vs) (chunks n ws)) :
      TupleListAlike n vs ws

def NotMap (v : Value) : Prop := match v with
  | .nil | .array _ | .map _ => False
  | _ => True

def EntriesAlike : List (Value × Value) → List (Value × Value) → Prop :=
  EachAlike (fun p => F p.1 ∨ F' p.2) fun p q => R p.1 q.1 ∧ R' p.2 q.2

/-- What a map cannot tell apart. -/
inductive MapAlike : Value → Value → Prop
  | nil : MapAlike .nil .nil
  | array {vs ws : List Value} (hlen : vs.length = ws.length) (h : EntriesAlike F F' R R' (pairUp vs) (pairUp ws)) :
      MapAlike (.array vs) (.array ws)
  | map {ps qs : List (Value × Value)} (h : EntriesAlike F F' R R' ps qs) : MapAlike (.map ps) (.map qs)
  | other {v w : Value} (hv : NotMap v) (hw : NotMap w) : MapAlike v w

def NotSet (v : Value) : Prop := match v with
  | .nil | .array _ | .set _ => False
  | _ => True

/-- What a set cannot tell apart. -/
inductive SetAlike : Value → Value → Prop
  | nil : SetAlike .nil .nil
  | array {vs ws : List Value} (h : EachAlike F R vs ws) : SetAlike (.array vs) (.array ws)
  | set {vs ws : List Value} (h : EachAlike F R vs ws) : SetAlike (.set vs) (.set ws)
  | other {v w : Value} (hv : NotSet v) (hw : NotSet w) : SetAlike v w

end

namespace Alikeness

variable (α β : Type) [FromRedisValue α] [FromRedisTuple β]

def items (A : Alikeness) (Rs : List Value → List Value → Prop) : List Value → List Value → Prop :=
  ItemsAlike A.one (RejectedItems (α × β)) Rs

def tuple (A : Alikeness) (n : Nat) (Rs : List Value → List Value → Prop) : Alikeness :=
  ⟨Inner (TupleAlike (A.items α β Rs)),
    TupleListAlike (Rejected (Tuple (α × β))) (RejectedItems (α × β)) (A.items α β Rs) (n + 1)⟩

end Alikeness

namespace ReplyType

variable [Libraries]

mutual

noncomputable def alike : ReplyType → Alikeness
  | t@(int _) | t@bool | t@string | t@cString => .each t.Carrier (Inner ScalarAlike)
  | t@(bigNum _) | t@value | t@unit => .each t.Carrier Eq
  | t@(vec u) => .each t.Carrier (VecAlike (Rejected u.Carrier) u.alike.one u.alike.many)
  | t@(array u _) => .each t.Carrier (ArrayAlike u.alike.many)
  | tuple t ts => t.alike.tuple t.Carrier (components ts).Carrier ts.length (alikeItems ts)
  | t@(hashMap k v) | t@(btreeMap k v) =>
    .each t.Carrier (Inner (MapAlike (Rejected k.Carrier) (Rejected v.Carrier) k.alike.one v.alike.one))
  | t@(hashSet u) | t@(btreeSet u) => .each t.Carrier (Inner (SetAlike (Rejected u.Carrier) u.alike.one))
  | t@(option u) => .each t.Carrier (Inner (OptionAlike u.alike.one))
  | t@(box u) => .each t.Carrier u.alike.one

noncomputable def alikeItems : List ReplyType → List Value → List Value → Prop
  | [] => fun vs ws => vs.length = ws.length
  | t :: ts => t.alike.items t.Carrier (components ts).Carrier (alikeItems ts)

end

end ReplyType

variable {α : Type} {r s : ParseResult α}

theorem Failed.same (hr : Failed r) (hs : Failed s) : Same r s := hr.trans hs.symm

theorem Failed.of_same (hs : Failed s) (h : Same r s) : Failed r := Eq.trans h hs

theorem Failed.bind {β : Type} (h : Failed r) (f : α → ParseResult β) : Failed (r >>= f) := by
  rcases r with e | a
  · rfl
  · cases h

section MapM

variable {ι : Type} {f g : ι → ParseResult α} {as bs : List ι} {F : ι → Prop} {R : ι → ι → Prop}

theorem failed_mapM (h : ∃ a ∈ as, Failed (f a)) : Failed (as.mapM f) := by
  obtain ⟨a, ha, hfail⟩ := h
  induction as with
  | nil => cases ha
  | cons b as ih =>
    rw [mapM_cons]
    rcases mem_cons.1 ha with rfl | ha
    · exact hfail.bind _
    · rcases f b with e | b
      · rfl
      · exact (ih ha).bind _

theorem same_mapM (hf : ∀ a b, R a b → Same (f a) (g b)) (hF : ∀ a, F a → Failed (f a) ∧ Failed (g a))
    (h : EachAlike F R as bs) : Same (as.mapM f) (bs.mapM g) := by
  rcases h with h | ⟨⟨a, ha, hfa⟩, b, hb, hfb⟩
  · induction h with
    | nil => rfl
    | cons hab _ ih =>
      rw [mapM_cons, mapM_cons]
      exact (hf _ _ hab).bind fun _ => ih.bind fun _ => .refl _
  · exact (failed_mapM ⟨a, ha, (hF a hfa).1⟩).same (failed_mapM ⟨b, hb, (hF b hfb).2⟩)

end MapM

/-- The conversions to `α` give the same for values that are alike. -/
structure Respects (α : Type) [FromRedisValue α] (A : Alikeness) : Prop where
  one : ∀ v w, A.one v w → Same (fromRedisValue v : ParseResult α) (fromRedisValue w)
  many : ∀ vs ws, A.many vs ws → Same (fromRedisValues vs : ParseResult (List α)) (fromRedisValues ws)

abbrev RespectsEach (α : Type) [FromRedisValue α] (R : Value → Value → Prop) : Prop := Respects α (.each α R)

/-- The components of a tuple are the same for lists that are alike. -/
structure RespectsItems (α : Type) [FromRedisTuple α] (Rs : List Value → List Value → Prop) : Prop where
  length_eq : ∀ vs ws, Rs vs ws → vs.length = ws.length
  items : ∀ vs ws, Rs vs ws → Same (fromItems vs : ParseResult α) (fromItems ws)

/-- The type is read from what is inside an attribute. -/
def LooksInside (α : Type) [FromRedisValue α] : Prop :=
  ∀ v, (fromRedisValue v : ParseResult α) = fromRedisValue (.attribute (getInnerValue v) [])

namespace Respects

variable {α : Type} [FromRedisValue α] {R : Value → Value → Prop}

theorem of_one (hα : Inherits α) (one : ∀ v w, R v w → Same (fromRedisValue v : ParseResult α) (fromRedisValue w)) :
    RespectsEach α R where
  one := one
  many vs ws h := by
    rw [hα.values, hα.values]
    exact same_mapM one (fun _ h => ⟨h, h⟩) h

theorem of_inner (hα : Inherits α) (hinner : LooksInside α)
    (one : ∀ v w, R v w → Same (fromRedisValue (.attribute v []) : ParseResult α) (fromRedisValue (.attribute w []))) :
    RespectsEach α (Inner R) := by
  refine of_one hα fun v w h => ?_
  rw [hinner v, hinner w]
  exact one _ _ h

theorem of_scalar (hα : Inherits α) (hinner : LooksInside α)
    (hfail : ∀ v, v.isContainer = true → Failed (fromRedisValue (.attribute v []) : ParseResult α)) :
    RespectsEach α (Inner ScalarAlike) := by
  refine of_inner hα hinner fun v w h => ?_
  cases h with
  | same => exact .refl _
  | containers hv hw => exact (hfail v hv).same (hfail w hw)

theorem of_eq (hα : Inherits α) : RespectsEach α Eq := of_one hα fun _ _ h => .of_eq (congrArg _ h)

end Respects

namespace LooksInside

theorem int (k : IntType) : LooksInside k.Carrier := by
  intro v
  rw [k.fromRedisValue_eq, k.fromRedisValue_eq]
  cases v <;> rfl

theorem bool : LooksInside Bool := fun v => by cases v <;> rfl
theorem string [Libraries] : LooksInside String := fun v => by cases v <;> rfl
theorem cString : LooksInside CString := fun v => by cases v <;> rfl

variable {α K V : Type} [FromRedisValue α] [FromRedisValue K] [FromRedisValue V]

theorem option : LooksInside (Option α) := fun v => by cases v <;> rfl

theorem hashMap [DecidableEq K] : LooksInside (HashMap K V) := fun v => by cases v <;> rfl
theorem btreeMap [DecidableEq K] : LooksInside (BTreeMap K V) := fun v => by cases v <;> rfl
theorem hashSet [DecidableEq α] : LooksInside (HashSet α) := fun v => by cases v <;> rfl
theorem btreeSet [DecidableEq α] : LooksInside (BTreeSet α) := fun v => by cases v <;> rfl

theorem tuple {β : Type} [FromRedisTuple β] : LooksInside (Tuple (α × β)) := fun v => by cases v <;> rfl

end LooksInside

namespace Respects

theorem int (k : IntType) : RespectsEach k.Carrier (Inner ScalarAlike) := by
  refine of_scalar (.int k) (.int k) fun v hv => ?_
  rw [k.fromRedisValue_eq]
  cases v <;> first | rfl | cases hv

theorem bool : RespectsEach Bool (Inner ScalarAlike) :=
  of_scalar .bool .bool fun v hv => by cases v <;> first | rfl | cases hv

theorem string [Libraries] : RespectsEach String (Inner ScalarAlike) :=
  of_scalar .string .string fun v hv => by cases v <;> first | rfl | cases hv

theorem cString : RespectsEach CString (Inner ScalarAlike) :=
  of_scalar .cString .cString fun v hv => by cases v <;> first | rfl | cases hv

variable {α : Type} [FromRedisValue α] {A B : Alikeness}

theorem vec (h : Respects α A) : RespectsEach (List α) (VecAlike (Rejected α) A.one A.many) := by
  have hother : ∀ v, NotVec v → Failed (fromRedisValue v : ParseResult (List α)) := fun v hv => by
    cases v <;> first | rfl | cases hv
  refine of_one .vec fun v w halike => ?_
  cases halike with
  | nil => exact .refl _
  | bulkString => exact .refl _
  | array hvs => exact h.many _ _ hvs
  | set hvs => exact h.many _ _ hvs
  | map hps => exact same_mapM (fun _ _ hp => h.one _ _ hp) (fun _ h => ⟨h, h⟩) hps
  | other hv hw => exact (hother v hv).same (hother w hw)

theorem array (h : Respects α A) (hagree : EntryPointsAgree α) (n : Nat) :
    RespectsEach (List.Vector α n) (ArrayAlike A.many) := by
  have hother : ∀ v, NotArray v → Failed (fromRedisValue v : ParseResult (List.Vector α n)) := fun v hv => by
    cases v <;> first | rfl | cases hv
  refine of_one (.array n) fun v w halike => ?_
  cases halike with
  | nil => exact .refl _
  | bulkString => exact .refl _
  | @array vs ws hvs =>
    have hrefs : Same (fromRedisValueRefs vs : ParseResult (List α)) (fromRedisValueRefs ws) :=
      (hagree.many vs).trans ((h.many _ _ hvs).trans (hagree.many ws).symm)
    refine hrefs.bind fun items => ?_
    -- the value is only named in the error
    rw [vecToArray, vecToArray]
    split <;> rfl
  | other hv hw => exact (hother v hv).same (hother w hw)

theorem option (h : Respects α A) : RespectsEach (Option α) (Inner (OptionAlike A.one)) := by
  have hsome : ∀ v, v ≠ .nil → (fromRedisValue (.attribute v []) : ParseResult (Option α)) =
      (fromRedisValue v).map some :=
    fun v hv => by cases v <;> first | rfl | exact absurd rfl hv
  refine of_inner .option .option fun v w halike => ?_
  cases halike with
  | nil => exact .refl _
  | some hv hw hone =>
    rw [hsome v hv, hsome w hw]
    exact (h.one v w hone).map _

theorem box (h : Respects α A) : RespectsEach (Boxed α) A.one :=
  of_one .box fun v w hone => (h.one v w hone).map _

section Collections

variable {K V : Type} [FromRedisValue K] [FromRedisValue V]

theorem failed_entry {p : Value × Value} (h : Rejected K p.1 ∨ Rejected V p.2) :
    Failed (do return (← fromRedisValue (α := K) p.1, ← fromRedisValue (α := V) p.2)) := by
  rcases h with h | h
  · exact h.bind _
  · rcases (fromRedisValue p.1 : ParseResult K) with e | k
    · rfl
    · exact h.bind _

theorem forMap_one [DecidableEq K] (hk : Respects K A) (hv : Respects V B) (v w : Value)
    (h : MapAlike (Rejected K) (Rejected V) A.one B.one v w) :
    Same ((forMap K V).fromRedisValue (.attribute v [])) ((forMap K V).fromRedisValue (.attribute w [])) := by
  have hother : ∀ v, NotMap v → Failed ((forMap K V).fromRedisValue (.attribute v [])) := fun v hv => by
    cases v <;> first | rfl | cases hv
  have hents : ∀ ps qs, EntriesAlike (Rejected K) (Rejected V) A.one B.one ps qs →
      Same (ps.mapM fun (k, v) => do return (← fromRedisValue (α := K) k, ← fromRedisValue (α := V) v))
        (qs.mapM fun (k, v) => do return (← fromRedisValue (α := K) k, ← fromRedisValue (α := V) v)) := fun ps qs h => by
    refine same_mapM (fun p q hpq => ?_) (fun p hp => ?_) h
    · exact (hk.one _ _ hpq.1).bind fun _ => (hv.one _ _ hpq.2).bind fun _ => .refl _
    · have hfail := failed_entry hp
      exact ⟨hfail, hfail⟩
  cases h with
  | nil => exact .refl _
  | @array vs ws hlen h =>
    simp only [fromRedisValue, getOwnedInnerValue, Value.intoMapIter, hlen]
    by_cases heven : ws.length % 2 = 0
    · rw [if_pos heven, if_pos heven]
      exact (hents _ _ h).bind fun _ => .refl _
    · rw [if_neg heven, if_neg heven]
      exact .of_errors _ _
  | map h => exact (hents _ _ h).bind fun _ => .refl _
  | other hv hw => exact (hother v hv).same (hother w hw)

theorem forSet_one [DecidableEq α] (hone : Respects α A) (v w : Value) (h : SetAlike (Rejected α) A.one v w) :
    Same ((forSet α).fromRedisValue (.attribute v [])) ((forSet α).fromRedisValue (.attribute w [])) := by
  have hother : ∀ v, NotSet v → Failed ((forSet α).fromRedisValue (.attribute v [])) := fun v hv => by
    cases v <;> first | rfl | cases hv
  cases h with
  | nil => exact .refl _
  | array h => exact (same_mapM hone.one (fun _ h => ⟨h, h⟩) h).bind fun _ => .refl _
  | set h => exact (same_mapM hone.one (fun _ h => ⟨h, h⟩) h).bind fun _ => .refl _
  | other hv hw => exact (hother v hv).same (hother w hw)

theorem hashMap [DecidableEq K] (hk : Respects K A) (hv : Respects V B) :
    RespectsEach (HashMap K V) (Inner (MapAlike (Rejected K) (Rejected V) A.one B.one)) :=
  of_inner .hashMap .hashMap (forMap_one hk hv)

theorem btreeMap [DecidableEq K] (hk : Respects K A) (hv : Respects V B) :
    RespectsEach (BTreeMap K V) (Inner (MapAlike (Rejected K) (Rejected V) A.one B.one)) :=
  of_inner .btreeMap .btreeMap (forMap_one hk hv)

theorem hashSet [DecidableEq α] (h : Respects α A) : RespectsEach (HashSet α) (Inner (SetAlike (Rejected α) A.one)) :=
  of_inner .hashSet .hashSet (forSet_one h)

theorem btreeSet [DecidableEq α] (h : Respects α A) : RespectsEach (BTreeSet α) (Inner (SetAlike (Rejected α) A.one)) :=
  of_inner .btreeSet .btreeSet (forSet_one h)

end Collections

end Respects

namespace RespectsItems

theorem nil : RespectsItems Unit (fun vs ws => vs.length = ws.length) := ⟨fun _ _ h => h, fun _ _ _ => .refl _⟩

theorem cons {α β : Type} [FromRedisValue α] [FromRedisTuple β] {A : Alikeness} {Rs : List Value → List Value → Prop}
    (h : Respects α A) (hs : RespectsItems β Rs) : RespectsItems (α × β) (A.items α β Rs) where
  length_eq vs ws halike := by
    cases halike with
    | nil => rfl
    | cons _ hrest => rw [length_cons, length_cons, hs.length_eq _ _ hrest]
    | refused hlen => exact hlen
  items vs ws halike := by
    cases halike with
    | nil => exact .refl _
    | cons hone hrest => exact (h.one _ _ hone).bind fun _ => (hs.items _ _ hrest).bind fun _ => .refl _
    | refused _ hv hw => exact hv.same hw

variable {α : Type} [FromRedisTuple α] {Rs : List Value → List Value → Prop}

theorem length_flatten (ps : List (Value × Value)) : (flatten ps).length = ps.length * 2 := by
  induction ps with
  | nil => rfl
  | cons p ps ih =>
    rw [flatten, flatMap_cons, length_append, ← flatten, ih]
    simp only [length_cons, length_nil]
    omega

theorem tuple_same (h : RespectsItems α Rs) (c : Prop) [Decidable c] (e e' : ParsingError) {vs ws : List Value}
    (hitems : Rs vs ws) :
    Same (do return (⟨← fromItems (← (if c then .error e else .ok vs : ParseResult _))⟩ : Tuple α))
      (do return ⟨← fromItems (← (if c then .error e' else .ok ws : ParseResult _))⟩) := by
  split
  · exact .of_errors _ _
  · exact (h.items _ _ hitems).bind fun _ => .refl _

theorem tuple_one (h : RespectsItems α Rs) (v w : Value) (halike : Inner (TupleAlike Rs) v w) :
    Same (tupleFromRedisValue α v) (tupleFromRedisValue α w) := by
  rw [tupleFromRedisValue, tupleFromRedisValue, tupleItems, tupleItems]
  rw [Inner] at halike
  generalize getInnerValue v = v at halike
  generalize getInnerValue w = w at halike
  cases halike with
  | array hitems =>
    dsimp only
    rw [h.length_eq _ _ hitems]
    exact h.tuple_same (¬_ = _) _ _ hitems
  | set hitems =>
    dsimp only
    rw [h.length_eq _ _ hitems]
    exact h.tuple_same (¬_ = _) _ _ hitems
  | @map ps qs hitems =>
    have hlen : ps.length * 2 = qs.length * 2 := by
      rw [← length_flatten, ← length_flatten, h.length_eq _ _ hitems]
    dsimp only
    rw [hlen]
    exact h.tuple_same (¬_ = _) _ _ hitems
  | other hv hw =>
    refine Failed.same ?_ ?_
    · cases v <;> first | rfl | cases hv
    · cases w <;> first | rfl | cases hw

theorem tuple_many (h : RespectsItems α Rs) (vs ws : List Value) 
    (halike : TupleListAlike (fun v => Failed (tupleFromRedisValue α v)) (RejectedItems α) Rs (arity α) vs ws) :
    Same (tupleFromRedisValues α vs) (tupleFromRedisValues α ws) := by
  have hne : ∀ {vs : List Value}, vs.all (Value.isCollectionOfLen (arity α)) = false → ¬vs.length = 0 := by
    rintro (_ | _) hall
    · cases hall
    · exact Nat.succ_ne_zero _
  have hnested : ∀ {vs : List Value}, vs.all (Value.isCollectionOfLen (arity α)) = true →
      tupleFromRedisValues α vs = vs.mapM (tupleFromRedisValue α) := by
    intro vs hall
    rw [tupleFromRedisValues, if_pos hall]
    split
    · next hlen => rw [length_eq_zero_iff.1 hlen, mapM_nil]; rfl
    · rfl
  cases halike with
  | nested hv hw hall =>
    rw [hnested hv, hnested hw]
    exact same_mapM h.tuple_one (fun _ h => ⟨h, h⟩) hall
  | flat hv hw hchunks =>
    rw [tupleFromRedisValues, tupleFromRedisValues, if_neg (hne hv), if_neg (hne hw),
      if_neg (Bool.eq_false_iff.1 hv), if_neg (Bool.eq_false_iff.1 hw)]
    refine same_mapM (fun as bs hitems => ?_) (fun as has => ?_) hchunks
    · rw [h.length_eq _ _ hitems]
      split
      · exact (h.items _ _ hitems).bind fun _ => .refl _
      · exact .of_errors _ _
    · split
      · exact ⟨has.bind _, has.bind _⟩
      · exact ⟨rfl, rfl⟩

end RespectsItems

theorem Respects.tuple {β : Type} [FromRedisValue α] [FromRedisTuple β] {A : Alikeness}
    {Rs : List Value → List Value → Prop} {n : Nat} (hn : arity β = n) (h : Respects α A) (hs : RespectsItems β Rs) :
    Respects (Tuple (α × β)) (A.tuple α β n Rs) := by
  subst hn
  exact ⟨(RespectsItems.cons h hs).tuple_one, (RespectsItems.cons h hs).tuple_many⟩

namespace ReplyType

variable [Libraries]

theorem arity_components (ts : List ReplyType) : arity (components ts).Carrier = ts.length := by
  induction ts with
  | nil => rfl
  | cons t ts ih => exact congrArg (· + 1) ih

open scoped Classical in
mutual

theorem respects : (t : ReplyType) → Respects t.Carrier t.alike
  | int k => .int k
  | bool => .bool
  | string => .string
  | cString => .cString
  | bigNum _ => .of_eq (.bigNum _)
  | value => .of_eq .value
  | unit => .of_eq .unit
  | vec t => .vec t.respects
  | array t n => .array t.respects t.entryPointsAgree n
  | tuple t ts => .tuple (arity_components ts) t.respects (respectsItems ts)
  | hashMap k v => .hashMap k.respects v.respects
  | btreeMap k v => .btreeMap k.respects v.respects
  | hashSet t => .hashSet t.respects
  | btreeSet t => .btreeSet t.respects
  | option t => .option t.respects
  | box t => .box t.respects

theorem respectsItems : (ts : List ReplyType) → RespectsItems (components ts).Carrier (alikeItems ts)
  | [] => .nil
  | t :: ts => .cons t.respects (respectsItems ts)

end

end ReplyType

/-- The type is never read from an attribute. -/
def TakesNone (α : Type) [FromRedisValue α] : Prop := ∀ d a, Failed (fromRedisValue (.attribute d a) : ParseResult α)

theorem TakesNone.bigNum [Libraries] (b : BigNumType) : TakesNone (Libraries.BigNum b) := fun _ _ => Eq.refl none
theorem TakesNone.vec [FromRedisValue α] : TakesNone (List α) := fun _ _ => Eq.refl none
theorem TakesNone.array [FromRedisValue α] (n : Nat) : TakesNone (List.Vector α n) := fun _ _ => Eq.refl none

namespace ReplyType

variable [Libraries]

end ReplyType

mutual

/-- `w` is `v` with wrappers added inside of it. -/
inductive Inside : Value → Value → Prop
  | scalar (v : Value) (h : v.isContainer = false) : Inside v v
  | array {vs ws : List Value} (h : Forall₂ Wraps vs ws) : Inside (.array vs) (.array ws)
  | set {vs ws : List Value} (h : Forall₂ Wraps vs ws) : Inside (.set vs) (.set ws)
  | push (kind : PushKind) {vs ws : List Value} (h : Forall₂ Wraps vs ws) : Inside (.push kind vs) (.push kind ws)
  | map {ps qs : List (Value × Value)} (hkeys : Forall₂ Wraps (ps.map Prod.fst) (qs.map Prod.fst))
      (hvalues : Forall₂ Wraps (ps.map Prod.snd) (qs.map Prod.snd)) : Inside (.map ps) (.map qs)
  | wrapper {v w : Value} (h : Inside v w) (a b : List (Value × Value)) : Inside (.attribute v a) (.attribute w b)

/-- `w` is `v` with wrappers added inside of it or around it, but never around a wrapper or in one. -/
inductive Wraps : Value → Value → Prop
  | inside {v w : Value} (h : Inside v w) : Wraps v w
  | around {v w : Value} (h : Inside v w) (hw : w.isAttribute = false) (a : List (Value × Value)) :
      Wraps v (.attribute w a)

end

theorem Value.isAttribute_of_not_container {v : Value} (h : v.isContainer = false) : v.isAttribute = false := by
  cases v <;> first | rfl | cases h

theorem Wraps.inner {v w : Value} (h : Wraps v w) : Inside (getInnerValue v) (getInnerValue w) := by
  cases h with
  | inside h => cases h with
    | scalar _ hv =>
      rw [Value.getInnerValue_of_not_attribute (Value.isAttribute_of_not_container hv)]
      exact .scalar v hv
    | array h => exact .array h
    | set h => exact .set h
    | push kind h => exact .push kind h
    | map hkeys hvalues => exact .map hkeys hvalues
    | wrapper h => exact h
  | around h hw =>
    have hv : v.isAttribute = false := by
      cases h with
      | scalar => exact hw
      | wrapper => cases hw
      | _ => rfl
    rw [Value.getInnerValue_of_not_attribute hv]
    exact h

section Entries

variable {R R' : Value → Value → Prop} {S : Value → Value → Prop}

theorem entries_of_map (h : ∀ v w, S v w → R v w) (h' : ∀ v w, S v w → R' v w) :
    ∀ {ps qs : List (Value × Value)}, Forall₂ S (ps.map Prod.fst) (qs.map Prod.fst) →
      Forall₂ S (ps.map Prod.snd) (qs.map Prod.snd) → Forall₂ (fun p q => R p.1 q.1 ∧ R' p.2 q.2) ps qs
  | [], [], _, _ => .nil
  | _ :: _, _ :: _, .cons hk hks, .cons hv hvs => .cons ⟨h _ _ hk, h' _ _ hv⟩ (entries_of_map h h' hks hvs)

theorem entries_pairUp (h : ∀ v w, S v w → R v w) (h' : ∀ v w, S v w → R' v w) :
    ∀ {vs ws : List Value}, Forall₂ S vs ws →
      Forall₂ (fun p q => R p.1 q.1 ∧ R' p.2 q.2) (pairUp vs) (pairUp ws)
  | [], [], _ => .nil
  | [_], [_], _ => .nil
  | _ :: _ :: _, _ :: _ :: _, .cons hk (.cons hv hrest) => .cons ⟨h _ _ hk, h' _ _ hv⟩ (entries_pairUp h h' hrest)

theorem forall₂_flatten : ∀ {ps qs : List (Value × Value)}, Forall₂ S (ps.map Prod.fst) (qs.map Prod.fst) →
    Forall₂ S (ps.map Prod.snd) (qs.map Prod.snd) → Forall₂ S (flatten ps) (flatten qs)
  | [], [], _, _ => .nil
  | _ :: _, _ :: _, .cons hk hks, .cons hv hvs => .cons hk (.cons hv (forall₂_flatten hks hvs))

end Entries

namespace ReplyType

mutual

def takesWrappers : ReplyType → Bool
  | int _ | bool | string | cString => true
  | bigNum _ | value | unit | vec _ | array _ _ => false
  | tuple t ts => t.takesWrappers && allTakeWrappers ts
  | hashMap k v | btreeMap k v => k.takesWrappers && v.takesWrappers
  | hashSet t | btreeSet t | option t | box t => t.takesWrappers

def allTakeWrappers : List ReplyType → Bool
  | [] => true
  | t :: ts => t.takesWrappers && allTakeWrappers ts

end

end ReplyType

namespace Inside

variable {v w : Value} {F F' : Value → Prop} {R R' : Value → Value → Prop}

theorem scalarAlike (h : Inside v w) : ScalarAlike v w := by
  cases h with
  | scalar => exact .same v
  | _ => exact .containers rfl rfl

theorem tupleAlike {Rs : List Value → List Value → Prop} (hs : ∀ vs ws, Forall₂ Wraps vs ws → Rs vs ws)
    (h : Inside v w) : TupleAlike Rs v w := by
  cases h with
  | scalar _ hv => cases v <;> first | exact .other trivial trivial | cases hv
  | array hvs => exact .array (hs _ _ hvs)
  | set hvs => exact .set (hs _ _ hvs)
  | map hks hvs => exact .map (hs _ _ (forall₂_flatten hks hvs))
  | _ => exact .other trivial trivial

theorem mapAlike (hk : ∀ v w, Wraps v w → R v w) (hv : ∀ v w, Wraps v w → R' v w) (h : Inside v w) :
    MapAlike F F' R R' v w := by
  cases h with
  | scalar _ hv => cases v <;> first | exact .nil | exact .other trivial trivial | cases hv
  | array hvs => exact .array hvs.length_eq (.alike (entries_pairUp hk hv hvs))
  | map hks hvs => exact .map (.alike (entries_of_map hk hv hks hvs))
  | _ => exact .other trivial trivial

theorem setAlike (hone : ∀ v w, Wraps v w → R v w) (h : Inside v w) : SetAlike F R v w := by
  cases h with
  | scalar _ hv => cases v <;> first | exact .nil | exact .other trivial trivial | cases hv
  | array hvs => exact .array (.alike (hvs.imp hone))
  | set hvs => exact .set (.alike (hvs.imp hone))
  | _ => exact .other trivial trivial

theorem optionAlike (hone : ∀ v w, Wraps v w → R v w) (h : Inside v w) : OptionAlike R v w := by
  have hRvw : R v w := hone v w (.inside h)
  cases h with
  | scalar _ hv => cases v <;> first | exact .nil | exact .some nofun nofun hRvw
  | _ => exact .some nofun nofun hRvw

end Inside

namespace ReplyType

variable [Libraries]

mutual

theorem alike_of_wraps : (t : ReplyType) → t.takesWrappers = true → ∀ v w, Wraps v w → t.alike.one v w
  | int _, _, _, _, h | bool, _, _, _, h | string, _, _, _, h | cString, _, _, _, h => h.inner.scalarAlike
  | tuple t ts, ht, _, _, h => by
    obtain ⟨hone, hrest⟩ := Bool.and_eq_true_iff.1 ht
    refine h.inner.tupleAlike fun vs ws hvs => ?_
    cases hvs with
    | nil => exact .nil
    | cons hv hvs => exact .cons (t.alike_of_wraps hone _ _ hv) (alikeItems_of_wraps ts hrest _ _ hvs)
  | hashMap k v, ht, _, _, h | btreeMap k v, ht, _, _, h => by
    obtain ⟨hk, hv⟩ := Bool.and_eq_true_iff.1 ht
    exact h.inner.mapAlike (k.alike_of_wraps hk) (v.alike_of_wraps hv)
  | hashSet t, ht, _, _, h | btreeSet t, ht, _, _, h => h.inner.setAlike (t.alike_of_wraps ht)
  | option t, ht, _, _, h => h.inner.optionAlike (t.alike_of_wraps ht)
  | box t, ht, v, w, h => t.alike_of_wraps ht v w h

theorem alikeItems_of_wraps : (ts : List ReplyType) → allTakeWrappers ts = true → ∀ vs ws, Forall₂ Wraps vs ws →
    alikeItems ts vs ws
  | [], _, _, _, h => h.length_eq
  | t :: ts, ht, _, _, h => by
    obtain ⟨hone, hrest⟩ := Bool.and_eq_true_iff.1 ht
    cases h with
    | nil => exact .nil
    | cons hv hvs => exact .cons (t.alike_of_wraps hone _ _ hv) (alikeItems_of_wraps ts hrest _ _ hvs)

end

end ReplyType

end RedisRs
