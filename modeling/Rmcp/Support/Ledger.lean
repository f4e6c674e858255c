import Rmcp.Support.Registry

/-!
# When a group of a registry closes

The ledger of a group counts what happened to it since it was last opened: the keys that
were attached, those of them that are still held (not detached since), and whether it was
closed by hand.

The keys are of two kinds. A passing key may be detached, and is attached at most once; the
other keys are never detached, and may be attached any number of times. Then the members of
an open group are the keys it holds, although the registry as a whole may be inconsistent.

Results:
1. `Agrees.apply`: every operation keeps registry and ledgers in agreement.
2. `closed_iff`: a group to which something was attached is closed exactly when it was
   closed by hand or holds nothing any more.
3. `open_of_held`: a group that is not closed by hand is open as long as it holds something.
4. `held_of_outstanding`: what was attached and not detached is held, if its group was
   open when it was attached, and not opened again before it was detached.
5. `attachesOpen_of_owner`: where everything outstanding has its owner, that was so.
6. `safeAll_of_nodup`: operations that never use a name twice are safe.
-/

universe u v

namespace Registry

variable {K : Type u} {C : Type v}

/-- What happened to a group since it was opened. -/
structure Ledger (K : Type u) where
  attached : Finset K
  held : Finset K
  closedByHand : Bool

/-- A registry with the ledgers of its groups. -/
structure Tracked (K : Type u) (C : Type v) where
  registry : Registry K C
  ledger : C → Ledger K

/-- The key that an operation attaches. -/
def Op.attachedKey? : Op K C → Option K
  | .attach k _ => some k
  | .openGroup _ | .closeGroup _ | .detach _ => none

/-- The keys attached by a list of operations, in order. -/
def attachedKeys (ops : List (Op K C)) : List K := ops.filterMap Op.attachedKey?

/-- The two kinds of keys are used as they should. -/
structure Disciplined (passing : K → Bool) (ops : List (Op K C)) : Prop where
  detached : ∀ k, .detach k ∈ ops → passing k = true
  once : ((attachedKeys ops).filter passing).Nodup

namespace Tracked

def empty : Tracked K C := ⟨.empty, fun _ => ⟨∅, ∅, false⟩⟩

variable [DecidableEq K] [DecidableEq C]

/-- The ledgers after one more operation. An attachment counts if the group is open. -/
def nextLedger (t : Tracked K C) : Op K C → C → Ledger K
  | .openGroup c => Function.update t.ledger c ⟨∅, ∅, false⟩
  | .closeGroup c => Function.update t.ledger c { t.ledger c with closedByHand := true }
  | .attach k c =>
    if (t.registry.members.get c).isSome then
      Function.update t.ledger c
        ⟨insert k (t.ledger c).attached, insert k (t.ledger c).held, (t.ledger c).closedByHand⟩
    else t.ledger
  | .detach k => fun c => { t.ledger c with held := (t.ledger c).held.erase k }

def apply (t : Tracked K C) (op : Op K C) : Tracked K C :=
  ⟨t.registry.apply op, t.nextLedger op⟩

def applyAll (t : Tracked K C) (ops : List (Op K C)) : Tracked K C := ops.foldl apply t

theorem applyAll_append (t : Tracked K C) (ops ops' : List (Op K C)) :
    t.applyAll (ops ++ ops') = (t.applyAll ops).applyAll ops' := List.foldl_append

/-- The registry does not depend on the ledgers. -/
theorem registry_applyAll (t : Tracked K C) (ops : List (Op K C)) :
    (t.applyAll ops).registry = t.registry.applyAll ops := by
  induction ops generalizing t with
  | nil => rfl
  | cons op ops ih => exact ih (t.apply op)

end Tracked

/-- The members and the owned keys of one group agree with its ledger; `seen` are the keys
attached to any group so far. -/
structure GroupAgrees (passing : K → Bool) (seen : List K) (owner : HashMap K C) (c : C)
    (members : Option (Finset K)) (l : Ledger K) : Prop where
  members_eq : ∀ ks, members = some ks → ks = l.held
  notByHand : members ≠ none → l.closedByHand = false
  holding : members ≠ none → l.attached ≠ ∅ → l.held ≠ ∅
  finished : members = none → l.attached = ∅ ∨ l.closedByHand = true ∨ l.held = ∅
  owned : members ≠ none → ∀ k ∈ l.held, passing k = true → owner.get k = some c
  seen_of_attached : ∀ k ∈ l.attached, k ∈ seen
  held_subset : l.held ⊆ l.attached
  kept : ∀ k ∈ l.attached, passing k = false → k ∈ l.held

/-- Registry and ledgers agree after the operations `ops`. -/
def Agrees (passing : K → Bool) (ops : List (Op K C)) (t : Tracked K C) : Prop :=
  ∀ c, GroupAgrees passing (attachedKeys ops) t.registry.owner c (t.registry.members.get c)
    (t.ledger c)

section Lemmas

variable {passing : K → Bool}

theorem agrees_empty : Agrees passing [] (Tracked.empty : Tracked K C) := by
  intro c
  constructor <;> simp [Tracked.empty, Registry.empty]

/-- A group that an operation does not change still agrees, if its passing keys keep their
owner. -/
theorem GroupAgrees.mono {seen seen' : List K} {owner owner' : HashMap K C} {c : C}
    {members : Option (Finset K)} {l : Ledger K}
    (h : GroupAgrees passing seen owner c members l) (hseen : ∀ k ∈ seen, k ∈ seen')
    (howner : ∀ k ∈ l.held, passing k = true → owner.get k = some c → owner'.get k = some c) :
    GroupAgrees passing seen' owner' c members l :=
  { h with
    owned := fun hm k hk hp => howner k hk hp (h.owned hm k hk hp)
    seen_of_attached := fun k hk => hseen k (h.seen_of_attached k hk) }

theorem attachedKeys_append (ops ops' : List (Op K C)) :
    attachedKeys (ops ++ ops') = attachedKeys ops ++ attachedKeys ops' := List.filterMap_append

theorem Disciplined.of_append {ops ops' : List (Op K C)} (h : Disciplined passing (ops ++ ops')) :
    Disciplined passing ops := by
  refine ⟨fun k hk => h.detached k (by simp [hk]), ?_⟩
  have honce := h.once
  rw [attachedKeys_append, List.filter_append] at honce
  exact List.Nodup.of_append_left honce

end Lemmas

section Steps

variable [DecidableEq K] [DecidableEq C] {passing : K → Bool} {ops : List (Op K C)}
  {t : Tracked K C}

theorem Agrees.openGroup (h : Agrees passing ops t) (c : C) :
    Agrees passing (ops ++ [.openGroup c]) (t.apply (.openGroup c)) := by
  intro c'
  have hseen : attachedKeys (ops ++ [.openGroup c]) = attachedKeys ops := by
    simp [attachedKeys, Op.attachedKey?]
  simp only [hseen, Tracked.apply, Tracked.nextLedger, Registry.apply, members_openGroup,
    owner_openGroup, Function.update_apply]
  split
  · constructor <;> simp
  · exact h c'

theorem Agrees.closeGroup (h : Agrees passing ops t) (c : C) :
    Agrees passing (ops ++ [.closeGroup c]) (t.apply (.closeGroup c)) := by
  intro c'
  have hseen : attachedKeys (ops ++ [.closeGroup c]) = attachedKeys ops := by
    simp [attachedKeys, Op.attachedKey?]
  simp only [hseen, Tracked.apply, Tracked.nextLedger, Registry.apply, members_closeGroup,
    owner_closeGroup, Function.update_apply]
  split
  · exact
      { members_eq := by simp
        notByHand := by simp
        holding := by simp
        finished := by simp
        owned := by simp
        seen_of_attached := (h c).seen_of_attached
        held_subset := (h c).held_subset
        kept := (h c).kept }
  · exact h c'

/-- Attaching a key, which is new if it is a passing one. -/
theorem Agrees.attach (h : Agrees passing ops t) {k : K} {c : C}
    (hnew : passing k = true → k ∉ attachedKeys ops) :
    Agrees passing (ops ++ [.attach k c]) (t.apply (.attach k c)) := by
  intro c'
  have hseen : attachedKeys (ops ++ [.attach k c]) = attachedKeys ops ++ [k] := by
    simp [attachedKeys, Op.attachedKey?]
  simp only [hseen, Tracked.apply, Tracked.nextLedger, Registry.apply]
  cases hmem : t.registry.members.get c with
  | none =>
    rw [attach_of_closed hmem]
    exact (h c').mono (fun k hk => by simp [hk]) fun _ _ _ hk => hk
  | some ks =>
    obtain rfl := (h c).members_eq ks hmem
    have hopen : t.registry.members.get c ≠ none := by simp [hmem]
    rw [attach_of_open hmem]
    simp only [Option.isSome_some, ↓reduceIte, Function.update_apply]
    by_cases hc : c' = c
    · subst hc
      simp only [HashMap.get_insert_self, ↓reduceIte]
      exact
        { members_eq := by simp
          notByHand := fun _ => (h c').notByHand hopen
          holding := by simp
          finished := by simp
          owned := by
            intro _ k' hk' hp
            rw [HashMap.get_insert]
            split
            · rfl
            · next hne =>
              exact (h c').owned hopen k' (Finset.mem_of_mem_insert_of_ne hk' hne) hp
          seen_of_attached := by
            intro k' hk'
            rcases Finset.mem_insert.mp hk' with rfl | hk'
            · simp
            · simp [(h c').seen_of_attached k' hk']
          held_subset := Finset.insert_subset_insert _ (h c').held_subset
          kept := by
            intro k' hk' hp
            rcases Finset.mem_insert.mp hk' with rfl | hk'
            · exact Finset.mem_insert_self _ _
            · exact Finset.mem_insert_of_mem ((h c').kept k' hk' hp) }
    · simp only [HashMap.get_insert_of_ne hc, if_neg hc]
      refine (h c').mono (fun k hk => by simp [hk]) fun k' hk' hp howner => ?_
      -- a passing key of another group was attached before, so it is not the new one
      have hne : k' ≠ k := by
        rintro rfl
        exact hnew hp ((h c').seen_of_attached k' ((h c').held_subset hk'))
      rwa [HashMap.get_insert_of_ne hne]

/-- What detaching a passing key leaves of a group. -/
theorem GroupAgrees.members_detach {seen : List K} {r : Registry K C} {c : C} {l : Ledger K}
    {k : K} (h : GroupAgrees passing seen r.owner c (r.members.get c) l) (hp : passing k = true) :
    ((r.detach k).members.get c = none ∧
        (l.attached = ∅ ∨ l.closedByHand = true ∨ l.held.erase k = ∅)) ∨
      (r.members.get c ≠ none ∧ (r.detach k).members.get c = some (l.held.erase k) ∧
        (l.attached ≠ ∅ → l.held.erase k ≠ ∅)) := by
  rw [Registry.members_detach]
  cases hmem : r.members.get c with
  | none =>
    refine .inl ⟨by simp, ?_⟩
    rcases h.finished hmem with hnone | hhand | hheld
    · exact .inl hnone
    · exact .inr (.inl hhand)
    · exact .inr (.inr (by simp [hheld]))
  | some ks =>
    obtain rfl := h.members_eq ks hmem
    have hopen : r.members.get c ≠ none := by simp [hmem]
    by_cases howner : r.owner.get k = some c
    · by_cases hempty : l.held.erase k = ∅
      · exact .inl ⟨by simp [howner, hempty], .inr (.inr hempty)⟩
      · exact .inr ⟨by simp, by simp [howner, hempty], fun _ => hempty⟩
    · -- a passing key that another group owns is not held here
      have hnot : k ∉ l.held := fun hk => howner (h.owned hopen k hk hp)
      rw [if_neg howner, Finset.erase_eq_of_notMem hnot]
      exact .inr ⟨by simp, rfl, h.holding hopen⟩

/-- Detaching a passing key. -/
theorem Agrees.detach (h : Agrees passing ops t) {k : K} (hp : passing k = true) :
    Agrees passing (ops ++ [.detach k]) (t.apply (.detach k)) := by
  intro c
  have hseen : attachedKeys (ops ++ [.detach k]) = attachedKeys ops := by
    simp [attachedKeys, Op.attachedKey?]
  have hc := h c
  have hsubset : (t.ledger c).held.erase k ⊆ (t.ledger c).attached :=
    (Finset.erase_subset _ _).trans hc.held_subset
  have hkept : ∀ k' ∈ (t.ledger c).attached, passing k' = false →
      k' ∈ (t.ledger c).held.erase k := by
    intro k' hk' hp'
    refine Finset.mem_erase.mpr ⟨?_, hc.kept k' hk' hp'⟩
    rintro rfl
    rw [hp] at hp'
    cases hp'
  simp only [hseen, Tracked.apply, Tracked.nextLedger, Registry.apply]
  rcases hc.members_detach hp with ⟨hnone, hfinished⟩ | ⟨hopen, hsome, hholding⟩
  · rw [hnone]
    exact
      { members_eq := by simp
        notByHand := by simp
        holding := by simp
        finished := fun _ => hfinished
        owned := by simp
        seen_of_attached := hc.seen_of_attached
        held_subset := hsubset
        kept := hkept }
  · rw [hsome]
    exact
      { members_eq := by simp
        notByHand := fun _ => hc.notByHand hopen
        holding := fun _ => hholding
        finished := by simp
        owned := by
          intro _ k' hk' hp'
          obtain ⟨hne, hk'⟩ := Finset.mem_erase.mp hk'
          rw [owner_detach, if_neg hne]
          exact hc.owned hopen k' hk' hp'
        seen_of_attached := hc.seen_of_attached
        held_subset := hsubset
        kept := hkept }

theorem Agrees.apply (h : Agrees passing ops t) {op : Op K C}
    (hop : Disciplined passing (ops ++ [op])) : Agrees passing (ops ++ [op]) (t.apply op) := by
  cases op with
  | openGroup c => exact h.openGroup c
  | closeGroup c => exact h.closeGroup c
  | attach k c =>
    refine h.attach fun hp hk => ?_
    have honce := hop.once
    rw [attachedKeys_append, List.filter_append] at honce
    refine List.disjoint_of_nodup_append honce (List.mem_filter.mpr ⟨hk, hp⟩) ?_
    simp [attachedKeys, Op.attachedKey?, hp]
  | detach k => exact h.detach (hop.detached k (by simp))

theorem agrees_applyAll (hops : Disciplined passing ops) :
    Agrees passing ops (Tracked.empty.applyAll ops) := by
  induction ops using List.reverseRecOn with
  | nil => exact agrees_empty
  | append_singleton ops op ih =>
    rw [Tracked.applyAll_append]
    exact (ih hops.of_append).apply hops

/-- A group that is never closed is not closed by hand. -/
theorem closedByHand_applyAll {c : C} (hops : .closeGroup c ∉ ops) :
    ((Tracked.empty.applyAll ops).ledger c).closedByHand = false := by
  induction ops using List.reverseRecOn with
  | nil => rfl
  | append_singleton ops op ih =>
    simp only [List.mem_append, List.mem_singleton, not_or] at hops
    have hbefore := ih hops.1
    rw [Tracked.applyAll_append]
    generalize Tracked.empty.applyAll ops = t at *
    change (t.nextLedger op c).closedByHand = false
    cases op with
    | openGroup c' | closeGroup c' =>
      simp only [Tracked.nextLedger, Function.update_apply]
      split <;> simp_all
    | attach k c' =>
      simp only [Tracked.nextLedger]
      split
      · rw [Function.update_apply]
        split <;> simp_all
      · exact hbefore
    | detach k => exact hbefore

/-- A group that holds something and is never closed by hand is open, and owns the passing keys
that it holds. -/
theorem open_of_held (hops : Disciplined passing ops) {c : C} {k : K}
    (hk : k ∈ ((Tracked.empty.applyAll ops).ledger c).held) (hclose : .closeGroup c ∉ ops) :
    (Registry.empty.applyAll ops).members.get c ≠ none ∧
      (passing k = true → (Registry.empty.applyAll ops).owner.get k = some c) := by
  have h := agrees_applyAll hops c
  rw [Tracked.registry_applyAll] at h
  have hopen : (Registry.empty.applyAll ops).members.get c ≠ none := by
    intro hclosed
    rcases h.finished hclosed with hnone | hhand | hheld
    · exact absurd (hnone ▸ h.held_subset hk) (Finset.notMem_empty k)
    · rw [closedByHand_applyAll hclose] at hhand
      cases hhand
    · exact absurd (hheld ▸ hk) (Finset.notMem_empty k)
  exact ⟨hopen, h.owned hopen k hk⟩

/-- A group to which something was attached is closed exactly when it was closed by hand or
holds nothing any more. -/
theorem closed_iff (hops : Disciplined passing ops) {c : C}
    (hattached : ((Tracked.empty.applyAll ops).ledger c).attached ≠ ∅) :
    (Registry.empty.applyAll ops).members.get c = none ↔
      ((Tracked.empty.applyAll ops).ledger c).closedByHand = true ∨
        ((Tracked.empty.applyAll ops).ledger c).held = ∅ := by
  have h := agrees_applyAll hops c
  rw [Tracked.registry_applyAll] at h
  constructor
  · intro hclosed
    exact (h.finished hclosed).resolve_left hattached
  · intro hdone
    by_contra hopen
    rcases hdone with hhand | hheld
    · rw [h.notByHand hopen] at hhand
      cases hhand
    · exact h.holding hopen hattached hheld

end Steps

section Owners

variable [DecidableEq K] [DecidableEq C] {r : Registry K C} {ops : List (Op K C)}

/-- A key is owned by a group that it was attached to. -/
theorem attached_of_owner {k : K} {c : C} (h : (r.applyAll ops).owner.get k = some c) :
    r.owner.get k = some c ∨ .attach k c ∈ ops := by
  induction ops generalizing r with
  | nil => exact .inl h
  | cons op ops ih =>
    rcases ih h with hbefore | hmem
    · cases op with
      | openGroup c' | closeGroup c' => exact .inl hbefore
      | detach k' =>
        simp only [apply, owner_detach] at hbefore
        split at hbefore
        · cases hbefore
        · exact .inl hbefore
      | attach k' c' =>
        simp only [apply, Registry.attach] at hbefore
        split at hbefore
        · rw [HashMap.get_insert] at hbefore
          split at hbefore
          · next heq =>
            obtain rfl := Option.some.inj hbefore
            exact .inr (heq ▸ List.mem_cons_self)
          · exact .inl hbefore
        · exact .inl hbefore
    · exact .inr (List.mem_cons_of_mem _ hmem)

end Owners

/-! ## Keys attached and not detached

The ledger leaves an attachment to a closed group out. Here every one counts, so that the
outstanding keys are read off the operations alone. The operations come in batches, and only the
registry after a whole batch is looked at. -/

section Outstanding

variable [DecidableEq K] [DecidableEq C]

/-- The keys that were attached to `c` and not detached since, after one more operation. -/
def nextOutstanding (c : C) (ks : Finset K) : Op K C → Finset K
  | .attach k c' => if c' = c then insert k ks else ks
  | .detach k => ks.erase k
  | .openGroup _ | .closeGroup _ => ks

/-- The keys that were attached to `c`, open or not, and not detached since. -/
def outstanding (c : C) (ops : List (Op K C)) : Finset K := ops.foldl (nextOutstanding c) ∅

/-- A passing key that is attached to `c` finds it open, unless it is detached `after` that. -/
def Op.AttachesOpen (passing : K → Bool) (c : C) (r : Registry K C) (after : List (Op K C)) :
    Op K C → Prop
  | .attach k c' => c' = c → passing k = true → .detach k ∉ after → (r.members.get c).isSome
  | .openGroup _ | .closeGroup _ | .detach _ => True

/-- Every operation of a batch finds `c` open if it attaches to it a passing key that the rest of
the batch does not detach. -/
def AttachesOpen (passing : K → Bool) (c : C) (r : Registry K C) : List (Op K C) → Prop
  | [] => True
  | op :: ops => op.AttachesOpen passing c r ops ∧ AttachesOpen passing c (r.apply op) ops

/-- The same for every batch of a list. -/
def EachAttachesOpen (passing : K → Bool) (c : C) (r : Registry K C) :
    List (List (Op K C)) → Prop
  | [] => True
  | ops :: batches =>
    AttachesOpen passing c r ops ∧ EachAttachesOpen passing c (r.applyAll ops) batches

/-- `c` is opened only while none of the passing keys in `ks` is outstanding. -/
def Op.OpensSettled (passing : K → Bool) (c : C) (ks : Finset K) : Op K C → Prop
  | .openGroup c' => c' = c → ∀ k ∈ ks, passing k = false
  | .closeGroup _ | .attach .. | .detach _ => True

/-- Every operation opens `c` only while no passing key is outstanding on it. -/
def OpensSettled (passing : K → Bool) (c : C) (ks : Finset K) : List (Op K C) → Prop
  | [] => True
  | op :: ops =>
    op.OpensSettled passing c ks ∧ OpensSettled passing c (nextOutstanding c ks op) ops

variable {passing : K → Bool} {c : C} {k : K} {ks : Finset K} {ops ops' : List (Op K C)}

instance (r : Registry K C) (after : List (Op K C)) (op : Op K C) :
    Decidable (op.AttachesOpen passing c r after) :=
  match op with
  | .attach k c' => inferInstanceAs (Decidable (c' = c → passing k = true → .detach k ∉ after →
      (r.members.get c).isSome))
  | .openGroup _ | .closeGroup _ | .detach _ => .isTrue trivial

instance (ks : Finset K) (op : Op K C) : Decidable (op.OpensSettled passing c ks) :=
  match op with
  | .openGroup c' => inferInstanceAs (Decidable (c' = c → ∀ k ∈ ks, passing k = false))
  | .closeGroup _ | .attach .. | .detach _ => .isTrue trivial

instance decidableAttachesOpen (r : Registry K C) (ops : List (Op K C)) :
    Decidable (AttachesOpen passing c r ops) :=
  match ops with
  | [] => .isTrue trivial
  | op :: ops =>
    have := decidableAttachesOpen (r.apply op) ops
    inferInstanceAs (Decidable (op.AttachesOpen passing c r ops ∧ _))

instance decidableEachAttachesOpen (r : Registry K C) (batches : List (List (Op K C))) :
    Decidable (EachAttachesOpen passing c r batches) :=
  match batches with
  | [] => .isTrue trivial
  | ops :: batches =>
    have := decidableEachAttachesOpen (r.applyAll ops) batches
    inferInstanceAs (Decidable (AttachesOpen passing c r ops ∧ _))

instance decidableOpensSettled (ks : Finset K) (ops : List (Op K C)) :
    Decidable (OpensSettled passing c ks ops) :=
  match ops with
  | [] => .isTrue trivial
  | op :: ops =>
    have := decidableOpensSettled (nextOutstanding c ks op) ops
    inferInstanceAs (Decidable (op.OpensSettled passing c ks ∧ _))

theorem eachAttachesOpen_append {r : Registry K C} {batches batches' : List (List (Op K C))} :
    EachAttachesOpen passing c r (batches ++ batches') ↔
      EachAttachesOpen passing c r batches ∧
        EachAttachesOpen passing c (r.applyAll batches.flatten) batches' := by
  induction batches generalizing r with
  | nil => simp [EachAttachesOpen]
  | cons ops batches ih => simp [EachAttachesOpen, ih, applyAll_append, and_assoc]

theorem opensSettled_append : OpensSettled passing c ks (ops ++ ops') ↔
    OpensSettled passing c ks ops ∧
      OpensSettled passing c (ops.foldl (nextOutstanding c) ks) ops' := by
  induction ops generalizing ks with
  | nil => simp [OpensSettled]
  | cons op ops ih => simp [OpensSettled, ih, and_assoc]

/-- A key stays outstanding until it is detached. -/
theorem mem_nextOutstanding {op : Op K C} (hk : k ∈ ks) (hop : op ≠ .detach k) :
    k ∈ nextOutstanding c ks op := by
  cases op with
  | attach k' c' =>
    simp only [nextOutstanding]
    split
    · exact Finset.mem_insert_of_mem hk
    · exact hk
  | detach k' => exact Finset.mem_erase.mpr ⟨fun heq => hop (heq ▸ rfl), hk⟩
  | openGroup _ | closeGroup _ => exact hk

theorem mem_foldl_nextOutstanding (hk : k ∈ ks) (hops : .detach k ∉ ops) :
    k ∈ ops.foldl (nextOutstanding c) ks := by
  induction ops generalizing ks with
  | nil => exact hk
  | cons op ops ih =>
    rw [List.mem_cons, not_or] at hops
    exact ih (mem_nextOutstanding hk (Ne.symm hops.1)) hops.2

/-- A key is outstanding exactly when an operation attached it and none since detached it. -/
theorem mem_outstanding_iff : k ∈ outstanding c ops ↔
    ∃ before after, ops = before ++ .attach k c :: after ∧ .detach k ∉ after := by
  constructor
  · intro hk
    induction ops using List.reverseRecOn with
    | nil => exact absurd hk (Finset.notMem_empty k)
    | append_singleton ops op ih =>
      have hlast : k ∈ nextOutstanding c (outstanding c ops) op := by
        simpa [outstanding] using hk
      have hbefore : k ∈ outstanding c ops → op ≠ .detach k →
          ∃ before after, ops ++ [op] = before ++ .attach k c :: after ∧ .detach k ∉ after := by
        intro hmem hne
        obtain ⟨before, after, rfl, hafter⟩ := ih hmem
        refine ⟨before, after ++ [op], by simp, ?_⟩
        simpa [hafter] using hne.symm
      cases op with
      | attach k' c' =>
        simp only [nextOutstanding] at hlast
        split at hlast
        · next hc =>
          rcases Finset.mem_insert.mp hlast with rfl | hmem
          · exact ⟨ops, [], by rw [hc], by simp⟩
          · exact hbefore hmem (by simp)
        · exact hbefore hlast (by simp)
      | detach k' =>
        obtain ⟨hne, hmem⟩ := Finset.mem_erase.mp hlast
        exact hbefore hmem fun heq => hne (Op.detach.inj heq).symm
      | openGroup _ | closeGroup _ => exact hbefore hlast (by simp)
  · rintro ⟨before, after, rfl, hafter⟩
    rw [outstanding, List.foldl_append, List.foldl_cons]
    exact mem_foldl_nextOutstanding (by simp [nextOutstanding]) hafter

/-- What a batch leaves outstanding is held, if that was so before the batch. -/
theorem Tracked.held_of_batch {t : Tracked K C}
    (h : ∀ k ∈ ks, passing k = true → .detach k ∉ ops → k ∈ (t.ledger c).held)
    (hattach : AttachesOpen passing c t.registry ops) (hopen : OpensSettled passing c ks ops) :
    ∀ k ∈ ops.foldl (nextOutstanding c) ks, passing k = true →
      k ∈ ((t.applyAll ops).ledger c).held := by
  induction ops generalizing t ks with
  | nil => exact fun k hk hp => h k hk hp (by simp)
  | cons op ops ih =>
    refine ih (t := t.apply op) (fun k hk hp hlater => ?_) hattach.2 hopen.2
    -- a key that was outstanding before this operation, and is not detached by it
    have hbefore : k ∈ ks → op ≠ .detach k → k ∈ (t.ledger c).held := fun hmem hne =>
      h k hmem hp (by simpa [hlater] using hne.symm)
    show k ∈ (t.nextLedger op c).held
    cases op with
    | openGroup c' =>
      have hheld := hbefore hk (by simp)
      rw [Tracked.nextLedger, Function.update_apply]
      split
      · next hc =>
        have hsettled := hopen.1 hc.symm k hk
        rw [hp] at hsettled
        cases hsettled
      · exact hheld
    | closeGroup c' =>
      have hheld := hbefore hk (by simp)
      rw [Tracked.nextLedger, Function.update_apply]
      split
      · next hc => exact hc ▸ hheld
      · exact hheld
    | detach k' =>
      obtain ⟨hne, hmem⟩ := Finset.mem_erase.mp hk
      exact Finset.mem_erase.mpr ⟨hne, hbefore hmem fun heq => hne (Op.detach.inj heq).symm⟩
    | attach k' c' =>
      simp only [nextOutstanding] at hk
      simp only [Tracked.nextLedger]
      split at hk
      · next hc =>
        subst hc
        rcases Finset.mem_insert.mp hk with rfl | hmem
        · rw [if_pos (hattach.1 rfl hp hlater), Function.update_self]
          exact Finset.mem_insert_self _ _
        · have hheld := hbefore hmem (by simp)
          split
          · rw [Function.update_self]
            exact Finset.mem_insert_of_mem hheld
          · exact hheld
      · next hc =>
        have hheld := hbefore hk (by simp)
        split
        · rwa [Function.update_of_ne (Ne.symm hc)]
        · exact hheld

theorem Tracked.held_of_batches {t : Tracked K C} {batches : List (List (Op K C))}
    (h : ∀ k ∈ ks, passing k = true → k ∈ (t.ledger c).held)
    (hattach : EachAttachesOpen passing c t.registry batches)
    (hopen : OpensSettled passing c ks batches.flatten) :
    ∀ k ∈ batches.flatten.foldl (nextOutstanding c) ks, passing k = true →
      k ∈ ((t.applyAll batches.flatten).ledger c).held := by
  induction batches generalizing t ks with
  | nil => exact h
  | cons ops batches ih =>
    rw [List.flatten_cons, opensSettled_append] at hopen
    have hbatch := Tracked.held_of_batch (fun k hk hp _ => h k hk hp) hattach.1 hopen.1
    rw [List.flatten_cons, List.foldl_append, Tracked.applyAll_append]
    refine ih hbatch ?_ hopen.2
    rw [Tracked.registry_applyAll]
    exact hattach.2

/-- What batches leave outstanding is held, if every passing key found its group open, and the
group was opened only while nothing was outstanding. -/
theorem held_of_outstanding {batches : List (List (Op K C))}
    (hattach : EachAttachesOpen passing c .empty batches)
    (hopen : OpensSettled passing c ∅ batches.flatten)
    (hk : k ∈ outstanding c batches.flatten) (hp : passing k = true) :
    k ∈ ((Tracked.empty.applyAll batches.flatten).ledger c).held :=
  Tracked.held_of_batches (fun k hk => absurd hk (Finset.notMem_empty k)) hattach hopen k hk hp

/-- A passing key that `c` owns in the end was attached to it while it was open. -/
theorem open_when_attached (hops : Disciplined passing (ops ++ .attach k c :: ops'))
    (hp : passing k = true)
    (howner : (Registry.empty.applyAll (ops ++ .attach k c :: ops')).owner.get k = some c) :
    ((Registry.empty.applyAll ops).members.get c).isSome := by
  -- no other operation attaches the key
  have honce := hops.once
  rw [attachedKeys_append, List.filter_append] at honce
  have hkey : ∀ {l : List (Op K C)}, .attach k c ∈ l → k ∈ (attachedKeys l).filter passing :=
    fun hmem => List.mem_filter.mpr ⟨List.mem_filterMap.mpr ⟨_, hmem, rfl⟩, hp⟩
  have hbefore : .attach k c ∉ ops := fun hmem =>
    List.disjoint_of_nodup_append honce (hkey hmem) (hkey List.mem_cons_self)
  have hafter : .attach k c ∉ ops' := by
    intro hmem
    have hcons : attachedKeys (.attach k c :: ops') = k :: attachedKeys ops' := rfl
    have hlater := List.Nodup.of_append_right honce
    rw [hcons, List.filter_cons_of_pos hp] at hlater
    exact (List.nodup_cons.mp hlater).1 (hkey hmem)
  by_contra hclosed
  rw [Option.not_isSome_iff_eq_none] at hclosed
  rw [applyAll_append, applyAll_cons] at howner
  change (((Registry.empty.applyAll ops).attach k c).applyAll ops').owner.get k = some c at howner
  rw [attach_of_closed hclosed] at howner
  rcases attached_of_owner howner with hold | hmem
  · rcases attached_of_owner hold with hnone | hmem
    · cases hnone
    · exact hbefore hmem
  · exact hafter hmem

/-- A batch after which every outstanding key has its owner found the group open. -/
theorem attachesOpen_of_owner (hops : Disciplined passing (ops ++ ops'))
    (h : ∀ k ∈ outstanding c (ops ++ ops'), passing k = true →
      (Registry.empty.applyAll (ops ++ ops')).owner.get k = some c) :
    AttachesOpen passing c (Registry.empty.applyAll ops) ops' := by
  induction ops' generalizing ops with
  | nil => trivial
  | cons op ops' ih =>
    constructor
    · cases op with
      | attach k c' =>
        rintro rfl hp hlater
        exact open_when_attached hops hp
          (h k (mem_outstanding_iff.mpr ⟨ops, ops', rfl, hlater⟩) hp)
      | openGroup _ | closeGroup _ | detach _ => trivial
    · have hassoc : ops ++ op :: ops' = (ops ++ [op]) ++ ops' := by simp
      rw [hassoc] at hops h
      have hrest := ih hops h
      rwa [applyAll_append] at hrest

end Outstanding

/-! ## Operations that use every name once -/

section Fresh

/-- The group that an operation opens. -/
def Op.openedGroup? : Op K C → Option C
  | .openGroup c => some c
  | .closeGroup _ | .attach .. | .detach _ => none

/-- The groups opened by a list of operations, in order. -/
def openedGroups (ops : List (Op K C)) : List C := ops.filterMap Op.openedGroup?

theorem openedGroups_append (ops ops' : List (Op K C)) :
    openedGroups (ops ++ ops') = openedGroups ops ++ openedGroups ops' := List.filterMap_append

/-- The operations open and attach nothing that the registry already has. -/
structure Unseen (r : Registry K C) (ops : List (Op K C)) : Prop where
  owner : ∀ k c, r.owner.get k = some c → k ∉ attachedKeys ops ∧ c ∉ openedGroups ops
  members : ∀ c, r.members.get c ≠ none → c ∉ openedGroups ops

variable [DecidableEq C] {r : Registry K C} {ops : List (Op K C)}

theorem Unseen.openGroup {c : C} (h : Unseen r (.openGroup c :: ops))
    (hc : c ∉ openedGroups ops) : Unseen (r.openGroup c) ops where
  owner k c' hk :=
    ⟨(h.owner k c' hk).1, fun hmem => (h.owner k c' hk).2 (List.mem_cons_of_mem _ hmem)⟩
  members c' hc' := by
    rw [members_openGroup] at hc'
    split at hc'
    · next heq => exact heq ▸ hc
    · exact fun hmem => h.members c' hc' (List.mem_cons_of_mem _ hmem)

variable [DecidableEq K]

theorem Unseen.attach {k : K} {c : C} (h : Unseen r (.attach k c :: ops))
    (hk : k ∉ attachedKeys ops) : Unseen (r.attach k c) ops := by
  have howner : ∀ k' c', r.owner.get k' = some c' → k' ∉ attachedKeys ops ∧ c' ∉ openedGroups ops :=
    fun k' c' hk' => ⟨fun hmem => (h.owner k' c' hk').1 (List.mem_cons_of_mem _ hmem),
      (h.owner k' c' hk').2⟩
  cases hmembers : r.members.get c with
  | none =>
    rw [attach_of_closed hmembers]
    exact ⟨howner, h.members⟩
  | some ks =>
    rw [attach_of_open hmembers]
    have hc : c ∉ openedGroups ops := h.members c (by simp [hmembers])
    refine ⟨fun k' c' hget => ?_, fun c' hget => ?_⟩
    · rw [HashMap.get_insert] at hget
      split at hget
      · next heq =>
        cases hget
        exact ⟨heq ▸ hk, hc⟩
      · exact howner k' c' hget
    · rw [HashMap.get_insert] at hget
      split at hget
      · next heq => exact heq ▸ hc
      · exact h.members c' hget

theorem Unseen.detach {k : K} (h : Unseen r (.detach k :: ops)) : Unseen (r.detach k) ops := by
  refine ⟨fun k' c hget => ?_, fun c hget => ?_⟩
  · rw [owner_detach] at hget
    split at hget
    · cases hget
    · exact h.owner k' c hget
  · refine h.members c fun hnone => hget ?_
    rw [members_detach, hnone]
    split <;> rfl

/-- When no key is attached and no group is opened twice, and no group is closed by hand, every
operation is safe. -/
theorem Unseen.safeAll (h : Unseen r ops) (hopened : (openedGroups ops).Nodup)
    (hattached : (attachedKeys ops).Nodup) (hclose : ∀ c, .closeGroup c ∉ ops) :
    SafeAll r ops := by
  induction ops generalizing r with
  | nil => trivial
  | cons op ops ih =>
    have hclose' : ∀ c, .closeGroup c ∉ ops := fun c hmem => hclose c (List.mem_cons_of_mem _ hmem)
    cases op with
    | openGroup c =>
      obtain ⟨hc, hopened⟩ := List.nodup_cons.mp hopened
      refine ⟨fun k hk => (h.owner k c hk).2 List.mem_cons_self, ?_⟩
      exact ih (h.openGroup hc) hopened hattached hclose'
    | closeGroup c => exact absurd List.mem_cons_self (hclose c)
    | attach k c =>
      obtain ⟨hk, hattached⟩ := List.nodup_cons.mp hattached
      refine ⟨.inr (.inl ?_), ih (h.attach hk) hopened hattached hclose'⟩
      by_contra hne
      obtain ⟨c', hk'⟩ := Option.ne_none_iff_exists'.mp hne
      exact (h.owner k c' hk').1 List.mem_cons_self
    | detach k => exact ⟨trivial, ih h.detach hopened hattached hclose'⟩

theorem safeAll_of_nodup (hopened : (openedGroups ops).Nodup)
    (hattached : (attachedKeys ops).Nodup) (hclose : ∀ c, .closeGroup c ∉ ops) :
    Registry.empty.SafeAll ops := by
  refine Unseen.safeAll ⟨fun k c hk => ?_, fun c hc => ?_⟩ hopened hattached hclose
  · simp [empty] at hk
  · simp [empty] at hc

end Fresh

end Registry
