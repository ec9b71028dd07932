/-
`StringSet` (`string_set.cc`): a hash set whose buckets hold a string or a chain of them.

A string may be stored in a neighbour of its home bucket if that is empty; its root is then marked as displaced.
Bucket ids are natural numbers here: the source's are `uint32_t`, and the only sum of them, `bid + 1`, wraps in a table
of 2^32 buckets alone, which takes more than 2^31 strings.
-/
import Mathlib.Algebra.BigOperators.Group.Finset.Basic
import Mathlib.Algebra.Order.BigOperators.Group.Multiset
import MaxRedis.Kv.DbSlice

namespace MaxRedis.Kv

open List Option Function

structure Bucket (S : Type) where
  displaced : Bool := false
  chain : List S := []
  deriving DecidableEq

def Bucket.guest {S : Type} (b : Bucket S) : Option S := if b.displaced then b.chain.head? else none
def Bucket.seated {S : Type} (b : Bucket S) : List S := if b.displaced then b.chain.tail else b.chain

structure StringSet (S : Type) where
  entries : ℕ → Bucket S := fun _ => {}
  bucketCount : ℕ := 0
  capacityLog : ℕ := 0
  size : UInt32 := 0
  numChainEntries : UInt32 := 0
  numUsedBuckets : UInt32 := 0

namespace StringSet

/-- more nested calls of `Link` than displaced buckets; `Link` into an empty bucket; `Link` into the bucket in work -/
inductive Fault
  | tooDeep | emptyTarget | workChanged

section Model
variable {S : Type} [DecidableEq S] (hash : S → UInt64)

def bucketId (capacityLog : ℕ) (str : S) : ℕ := (hash str).toNat / 2 ^ (64 - capacityLog) % 2 ^ 32

def put (t : StringSet S) (bid : ℕ) (b : Bucket S) : StringSet S :=
  { t with entries := Function.update t.entries bid b }

def total {M : Type} [AddCommMonoid M] (f : Bucket S → M) (t : StringSet S) : M :=
  ∑ k ∈ Finset.range t.bucketCount, f (t.entries k)

def numDisplaced (t : StringSet S) : ℕ := total (fun b => b.displaced.toNat) t

/-- `Link`; `isLink` says that `ptr` is a link node, which is used again -/
def link (fuel : ℕ) (t : StringSet S) (isLink : Bool) (val : S) (bid : ℕ) : Except Fault (StringSet S) :=
  match (t.entries bid).chain with
  | [] => .error .emptyTarget
  | root :: rest =>
    if (t.entries bid).displaced ∧ isLink = false then
      match fuel with
      | 0 => .error .tooDeep
      | fuel + 1 => link fuel (t.put bid ⟨false, val :: rest⟩) false root (bucketId hash t.capacityLog root)
    else
      let t' := t.put bid ⟨(t.entries bid).displaced, root :: val :: rest⟩
      .ok (if isLink then t' else { t' with numChainEntries := t.numChainEntries + 1 })

def linkFrom (work : ℕ) (t : StringSet S) (isLink : Bool) (val : S) (bid : ℕ) : Except Fault (StringSet S) :=
  match link hash t.numDisplaced t isLink val bid with
  | .error fault => .error fault
  | .ok t' => if t'.entries work = t.entries work then .ok t' else .error .workChanged

def findEmptyAround (t : StringSet S) (bid : ℕ) : ℤ :=
  if (t.entries bid).chain = [] then 0
  else if bid + 1 < t.bucketCount ∧ (t.entries (bid + 1)).chain = [] then 1
  else if bid ≠ 0 ∧ (t.entries (bid - 1)).chain = [] then -1
  else 2

def findAround (t : StringSet S) (str : S) (bid : ℕ) : ℤ :=
  if str ∈ (t.entries bid).chain then 0
  else if bid ≠ 0 ∧ (t.entries (bid - 1)).chain.head? = some str then -1
  else if bid + 1 < t.bucketCount ∧ (t.entries (bid + 1)).chain.head? = some str then 1
  else 2

def setFlat (t : StringSet S) (bid : ℕ) (offs : ℤ) (str : S) : StringSet S :=
  { t.put (bid + offs).toNat ⟨offs ≠ 0, [str]⟩ with numUsedBuckets := t.numUsedBuckets + 1 }

/-- the inner loop of `Grow` on bucket `i`, and the end of its turn: `kept` are the strings that stay, and `moved` says
that the last string before `rest` has been moved -/
def rehash (i : ℕ) : (kept rest : List S) → (moved : Bool) → StringSet S → Except Fault (StringSet S)
  | kept, [], moved, t =>
    let t := if kept ≠ [] ∧ moved then { t with numChainEntries := t.numChainEntries - 1 } else t
    .ok (if kept = [] then { t with numUsedBuckets := t.numUsedBuckets - 1 } else t)
  | kept, str :: rest, _, t =>
    let bid := bucketId hash t.capacityLog str
    if bid = i then rehash i (kept ++ [str]) rest false (t.put i ⟨false, kept ++ str :: rest⟩)
    else
      let offs := t.findEmptyAround bid
      if offs < 2 then
        let t := t.setFlat bid offs str
        let t := if rest = [] then t else { t with numChainEntries := t.numChainEntries - 1 }
        rehash i kept rest true (t.put i ⟨false, kept ++ rest⟩)
      else
        match linkFrom hash i t (rest ≠ []) str bid with
        | .error fault => .error fault
        | .ok t => rehash i kept rest true (t.put i ⟨false, kept ++ rest⟩)

def growLoop : ℕ → StringSet S → Except Fault (StringSet S)
  | 0, t => .ok t
  | i + 1, t =>
    if (t.entries i).chain = [] then growLoop i t
    else
      match rehash hash i [] (t.entries i).chain false t with
      | .error fault => .error fault
      | .ok t => growLoop i t

def grow (t : StringSet S) : Except Fault (StringSet S) :=
  growLoop hash t.bucketCount { t with bucketCount := t.bucketCount * 2, capacityLog := t.capacityLog + 1 }

def addToChain (t : StringSet S) (str : S) : Except Fault (StringSet S) :=
  let bid := bucketId hash t.capacityLog str
  match (t.entries bid).chain with
  | [] => .error .emptyTarget
  | root :: rest =>
    if (t.entries bid).displaced then
      match linkFrom hash bid t false root (bucketId hash t.capacityLog root) with
      | .error fault => .error fault
      | .ok t => .ok (t.put bid ⟨false, str :: rest⟩)
    else .ok { t.put bid ⟨false, str :: root :: rest⟩ with numChainEntries := t.numChainEntries + 1 }

def addLoop : ℕ → StringSet S → S → Except Fault (StringSet S)
  | 0, t, str => t.addToChain hash str
  | j + 1, t, str =>
    let bid := bucketId hash t.capacityLog str
    let offs := t.findEmptyAround bid
    if offs < 2 then .ok (t.setFlat bid offs str)
    else if t.size.toNat < t.bucketCount then t.addToChain hash str
    else
      match t.grow hash with
      | .error fault => .error fault
      | .ok t => addLoop j t str

def add (t : StringSet S) (str : S) : Except Fault (StringSet S × Bool) :=
  if t.bucketCount = 0 then
    let t := { t with capacityLog := 2, bucketCount := 4 }
    .ok ({ t.setFlat (bucketId hash 2 str) 0 str with size := t.size + 1 }, true)
  else if t.findAround str (bucketId hash t.capacityLog str) < 2 then .ok (t, false)
  else
    match addLoop hash 2 { t with size := t.size + 1 } str with
    | .error fault => .error fault
    | .ok t => .ok (t, true)

def addAll : StringSet S → List S → Except Fault (StringSet S × List Bool)
  | t, [] => .ok (t, [])
  | t, str :: strs =>
    match t.add hash str with
    | .error fault => .error fault
    | .ok (t, b) =>
      match addAll t strs with
      | .error fault => .error fault
      | .ok (t, bs) => .ok (t, b :: bs)

end Model

/-! ## Totals -/

section Totals
variable {S : Type}

lemma total_put {M : Type} [AddCommMonoid M] (f : Bucket S → M) (t : StringSet S) {k : ℕ} (hk : k < t.bucketCount)
    (b : Bucket S) : total f (t.put k b) + f (t.entries k) = total f t + f b := by
  have hmem := Finset.mem_range.2 hk
  have hrest : ∑ j ∈ (Finset.range t.bucketCount).erase k, f (Function.update t.entries k b j) =
      ∑ j ∈ (Finset.range t.bucketCount).erase k, f (t.entries j) := by
    refine Finset.sum_congr rfl (fun j hj => ?_)
    rw [update_of_ne (Finset.ne_of_mem_erase hj)]
  have hput : total f (t.put k b) = f b + ∑ j ∈ (Finset.range t.bucketCount).erase k, f (t.entries j) := by
    unfold total put
    dsimp only
    rw [← Finset.add_sum_erase _ _ hmem, update_self, hrest]
  have hold : total f t = f (t.entries k) + ∑ j ∈ (Finset.range t.bucketCount).erase k, f (t.entries j) :=
    (Finset.add_sum_erase _ (fun j => f (t.entries j)) hmem).symm
  rw [hput, hold]
  abel

def strings (b : Bucket S) : Multiset S := b.chain
def used (b : Bucket S) : ℕ := if b.chain = [] then 0 else 1
def links (b : Bucket S) : ℕ := b.chain.length - 1

lemma mem_total {t : StringSet S} {x : S} : x ∈ total strings t ↔ ∃ k < t.bucketCount, x ∈ (t.entries k).chain := by
  unfold total
  rw [Multiset.mem_sum]
  simp [strings]

lemma total_used_congr {t t' : StringSet S} (hn : t'.bucketCount = t.bucketCount)
    (h : ∀ k, (t'.entries k).chain = [] ↔ (t.entries k).chain = []) : total used t' = total used t := by
  unfold total
  rw [hn]
  refine Finset.sum_congr rfl (fun k _ => ?_)
  unfold used
  simp only [h k]

lemma total_strings_put (t : StringSet S) {k : ℕ} (hk : k < t.bucketCount) {b : Bucket S} {x : S}
    (hb : (b.chain : Multiset S) = x ::ₘ (t.entries k).chain) : total strings (t.put k b) = x ::ₘ total strings t := by
  have h := total_put strings t hk b
  rw [show strings b = x ::ₘ strings (t.entries k) from hb, Multiset.add_cons, ← Multiset.cons_add] at h
  exact add_right_cancel h

lemma add_swap (a b c : UInt32) : a + b + c = a + c + b := by
  rw [UInt32.add_assoc, UInt32.add_comm b, ← UInt32.add_assoc]

lemma add_pred {a b c : UInt32} (h : a + b = c + 1) : a + (b - 1) = c := by
  refine (UInt32.add_left_inj 1).1 ?_
  rw [UInt32.add_assoc, UInt32.sub_add_cancel, h]

end Totals

/-! ## Guests and their homes -/

section Homes
variable {S : Type} {id : S → ℕ} {e : ℕ → Bucket S} {R : ℕ → Prop}

/-- The buckets of the region hold what belongs there. A guest's home is a neighbour in the region, which is not empty
and has no guest whose home is here. -/
structure Ok (id : S → ℕ) (e : ℕ → Bucket S) (R : ℕ → Prop) : Prop where
  own : ∀ k, R k → ∀ x ∈ (e k).seated, id x = k
  root : ∀ k, R k → ∀ r, (e k).guest = some r → R (id r) ∧ (e (id r)).chain ≠ [] ∧ (id r = k + 1 ∨ id r + 1 = k) ∧
    (e (id r)).guest.map id ≠ some k

lemma guest_of_nil {b : Bucket S} (h : b.chain = []) : b.guest = none := by
  unfold Bucket.guest
  rw [h]
  exact ite_self _

lemma Ok.side {R' : ℕ → Prop} (h : Ok id e R) (hsub : ∀ k, R' k → R k)
    (hclosed : ∀ k r, R' k → (e k).guest = some r → R' (id r)) : Ok id e R' := by
  refine ⟨fun k hk => h.own k (hsub k hk), fun k hk r hr => ?_⟩
  obtain ⟨-, hrest⟩ := h.root k (hsub k hk) r hr
  exact ⟨hclosed k r hk hr, hrest⟩

lemma Ok.put (h : Ok id e R) {b : ℕ} {B : Bucket S} (hown : ∀ x ∈ B.seated, id x = b)
    (hguest : ∀ r, B.guest = some r → (e b).guest = some r) (hne : B.chain ≠ []) : Ok id (Function.update e b B) R := by
  have hold : ∀ k r, (Function.update e b B k).guest = some r → (e k).guest = some r := by
    intro k r hr
    by_cases hk : k = b
    · subst hk
      rw [update_self] at hr
      exact hguest r hr
    · rwa [update_of_ne hk] at hr
  constructor
  · intro k hk x hx
    by_cases hkb : k = b
    · subst hkb
      rw [update_self] at hx
      exact hown x hx
    · rw [update_of_ne hkb] at hx
      exact h.own k hk x hx
  · intro k hk r hr
    obtain ⟨hR, hhome, hnear, hmutual⟩ := h.root k hk r (hold k r hr)
    refine ⟨hR, ?_, hnear, fun hback => ?_⟩
    · by_cases hb : id r = b
      · rw [hb, update_self]
        exact hne
      · rw [update_of_ne hb]
        exact hhome
    · obtain ⟨r', hr', hid⟩ := map_eq_some_iff.1 hback
      exact hmutual (map_eq_some_iff.2 ⟨r', hold _ r' hr', hid⟩)

lemma Ok.place (h : Ok id e R) {x : S} {d : ℕ} {flag : Bool} (hempty : (e d).chain = []) (hR : R (id x))
    (hflag : flag = false ∧ d = id x ∨ flag = true ∧ (id x = d + 1 ∨ id x + 1 = d) ∧ (e (id x)).chain ≠ []) :
    Ok id (Function.update e d ⟨flag, [x]⟩) R := by
  -- an empty bucket is nobody's home
  have hhome : ∀ k r, R k → (e k).guest = some r → id r ≠ d := by
    intro k r hk hr hd
    exact (h.root k hk r hr).2.1 (by rw [hd]; exact hempty)
  constructor
  · intro k hk y hy
    by_cases hkd : k = d
    · subst hkd
      rw [update_self] at hy
      rcases hflag with ⟨rfl, hd⟩ | ⟨rfl, -⟩
      · rw [mem_singleton.1 hy, hd]
      · cases hy
    · rw [update_of_ne hkd] at hy
      exact h.own k hk y hy
  · intro k hk r hr
    by_cases hkd : k = d
    · subst hkd
      rw [update_self] at hr
      rcases hflag with ⟨rfl, -⟩ | ⟨rfl, hnear, hne⟩
      · cases hr
      · obtain rfl : x = r := some.inj hr
        have hother : id x ≠ k := by omega
        rw [update_of_ne hother]
        refine ⟨hR, hne, hnear, fun hback => ?_⟩
        obtain ⟨r', hr', hid⟩ := map_eq_some_iff.1 hback
        exact hhome _ r' hR hr' hid
    · rw [update_of_ne hkd] at hr
      rw [update_of_ne (hhome k r hk hr)]
      exact h.root k hk r hr

end Homes

/-! ## Link -/

section Link
variable {S : Type} {hash : S → UInt64}
  {t : StringSet S} {bid : ℕ} {root x : S} {rest : List S} {isLink : Bool} {b : Bucket S}

structure Linked (hash : S → UInt64) (R : ℕ → Prop) (x : S) (isLink : Bool) (t t' : StringSet S) : Prop where
  fixed : t' = { t with entries := t'.entries, numChainEntries := t.numChainEntries + if isLink then 0 else 1 }
  ok : Ok (bucketId hash t.capacityLog) t'.entries R
  frame : ∀ k, ¬R k → t'.entries k = t.entries k
  nonempty : ∀ k, (t'.entries k).chain = [] ↔ (t.entries k).chain = []
  guest : ∀ k r, (t'.entries k).guest = some r → (t.entries k).guest = some r
  content : total strings t' = x ::ₘ total strings t

lemma link_plain (fuel : ℕ)
    (hc : (t.entries bid).chain = root :: rest) (h : ¬((t.entries bid).displaced = true ∧ isLink = false)) :
    link hash fuel t isLink x bid = .ok { t.put bid ⟨(t.entries bid).displaced, root :: x :: rest⟩ with
      numChainEntries := t.numChainEntries + if isLink then 0 else 1 } := by
  unfold link
  rw [hc]
  dsimp only
  rw [if_neg h]
  cases isLink
  · rfl
  · simp only [if_true, UInt32.add_zero]
    rfl

lemma put_nonempty {bid k : ℕ} (hb : b.chain ≠ []) (hne : (t.entries bid).chain ≠ []) :
    ((t.put bid b).entries k).chain = [] ↔ (t.entries k).chain = [] := by
  unfold put
  by_cases hk : k = bid
  · subst hk
    dsimp only
    rw [update_self]
    exact ⟨fun h => absurd h hb, fun h => absurd h hne⟩
  · dsimp only
    rw [update_of_ne hk]

lemma put_guest (hb : ∀ r, b.guest = some r → (t.entries bid).guest = some r)
    (k : ℕ) (r : S) (h : ((t.put bid b).entries k).guest = some r) : (t.entries k).guest = some r := by
  unfold put at h
  dsimp only at h
  by_cases hk : k = bid
  · subst hk
    rw [update_self] at h
    exact hb r h
  · rwa [update_of_ne hk] at h

lemma Linked.plain {R : ℕ → Prop} (hR : ∀ k, R k → k < t.bucketCount)
    (hok : Ok (bucketId hash t.capacityLog) t.entries R) (hb : R bid)
    (hc : (t.entries bid).chain = root :: rest) (hx : bucketId hash t.capacityLog x = bid) (isLink : Bool) :
    Linked hash R x isLink t { t.put bid ⟨(t.entries bid).displaced, root :: x :: rest⟩ with
      numChainEntries := t.numChainEntries + if isLink then 0 else 1 } := by
  have hguest : ∀ r, (⟨(t.entries bid).displaced, root :: x :: rest⟩ : Bucket S).guest = some r →
      (t.entries bid).guest = some r := by
    intro r hr
    unfold Bucket.guest at hr ⊢
    rw [hc]
    exact hr
  have hown : ∀ y ∈ (⟨(t.entries bid).displaced, root :: x :: rest⟩ : Bucket S).seated,
      bucketId hash t.capacityLog y = bid := by
    have hold := hok.own bid hb
    unfold Bucket.seated at hold ⊢
    rw [hc] at hold
    intro y hy
    cases hd : (t.entries bid).displaced with
    | true =>
      rw [hd] at hold hy
      rcases mem_cons.1 hy with rfl | hy
      · exact hx
      · exact hold y hy
    | false =>
      rw [hd] at hold hy
      rcases mem_cons.1 hy with rfl | hy
      · exact hold y mem_cons_self
      · rcases mem_cons.1 hy with rfl | hy
        · exact hx
        · exact hold y (mem_cons_of_mem _ hy)
  refine ⟨rfl, hok.put hown hguest (cons_ne_nil _ _), fun k hk => ?_,
    fun k => put_nonempty (cons_ne_nil _ _) (by rw [hc]; exact cons_ne_nil _ _), put_guest hguest, ?_⟩
  · have hother : k ≠ bid := by
      rintro rfl
      exact hk hb
    exact update_of_ne hother _ _
  · refine total_strings_put t (hR bid hb) ?_
    rw [hc]
    exact Multiset.cons_swap root x rest

/-- **Link returns** after at most as many nested calls as there are displaced buckets, and only changes buckets of the
region. -/
theorem link_spec {R : ℕ → Prop} {t : StringSet S} (hR : ∀ k, R k → k < t.bucketCount)
    (hok : Ok (bucketId hash t.capacityLog) t.entries R) {bid : ℕ} (hb : R bid) (hne : (t.entries bid).chain ≠ [])
    {x : S} (hx : bucketId hash t.capacityLog x = bid) {fuel : ℕ} (hfuel : t.numDisplaced ≤ fuel) (isLink : Bool) :
    ∃ t', link hash fuel t isLink x bid = .ok t' ∧ Linked hash R x isLink t t' := by
  obtain ⟨root, rest, hc⟩ := exists_cons_of_ne_nil hne
  by_cases hplain : (t.entries bid).displaced = true ∧ isLink = false
  · obtain ⟨hd, rfl⟩ := hplain
    have hguest : (t.entries bid).guest = some root := by
      unfold Bucket.guest
      rw [hd, hc]
      rfl
    obtain ⟨hRr, hhome, -, -⟩ := hok.root bid hb root hguest
    -- the guest leaves, and is one displaced bucket less
    set t₁ := t.put bid ⟨false, x :: rest⟩ with ht₁
    have hflags : t₁.numDisplaced + 1 = t.numDisplaced := by
      have h := total_put (fun b => b.displaced.toNat) t (hR bid hb) ⟨false, x :: rest⟩
      rw [hd] at h
      exact h
    have hnone : ∀ r, (⟨false, x :: rest⟩ : Bucket S).guest = some r → (t.entries bid).guest = some r := nofun
    have hown : ∀ y ∈ (⟨false, x :: rest⟩ : Bucket S).seated, bucketId hash t.capacityLog y = bid := by
      have hold := hok.own bid hb
      unfold Bucket.seated at hold
      rw [hd, hc] at hold
      intro y hy
      rcases mem_cons.1 hy with rfl | hy
      · exact hx
      · exact hold y hy
    have hok₁ : Ok (bucketId hash t.capacityLog) t₁.entries R := hok.put hown hnone (cons_ne_nil _ _)
    have hempty : ∀ k, (t₁.entries k).chain = [] ↔ (t.entries k).chain = [] := fun k =>
      put_nonempty (cons_ne_nil _ _) hne
    cases fuel with
    | zero => omega
    | succ fuel =>
      obtain ⟨t', hrun, hl⟩ := @link_spec R t₁ hR hok₁ _ hRr (fun hnil => hhome ((hempty _).1 hnil)) root rfl
          fuel (by omega)
        false
      refine ⟨t', ?_, hl.fixed, hl.ok, fun k hk => ?_, fun k => (hl.nonempty k).trans (hempty k),
        fun k r hr => put_guest hnone k r (hl.guest k r hr), ?_⟩
      · unfold link
        rw [hc]
        dsimp only
        rw [if_pos ⟨hd, rfl⟩]
        exact hrun
      · have hother : k ≠ bid := by
          rintro rfl
          exact hk hb
        exact (hl.frame k hk).trans (update_of_ne hother _ _)
      · have h := total_put strings t (hR bid hb) ⟨false, x :: rest⟩
        have hout : strings (t.entries bid) = root ::ₘ (rest : Multiset S) := congrArg _ hc
        have hin : strings (⟨false, x :: rest⟩ : Bucket S) = x ::ₘ (rest : Multiset S) := rfl
        rw [hout, hin, Multiset.add_cons, Multiset.add_cons, ← Multiset.cons_add, ← Multiset.cons_add] at h
        exact hl.content.trans (add_right_cancel h)
  · exact ⟨_, link_plain fuel hc hplain, Linked.plain hR hok hb hc hx isLink⟩

lemma Linked.okAll {R Q : ℕ → Prop} {t t' : StringSet S} (hl : Linked hash R x isLink t t')
    (h : Ok (bucketId hash t.capacityLog) t.entries Q) : Ok (bucketId hash t.capacityLog) t'.entries Q := by
  constructor
  · intro k hk y hy
    by_cases hR : R k
    · exact hl.ok.own k hR y hy
    · rw [hl.frame k hR] at hy
      exact h.own k hk y hy
  · intro k hk r hr
    obtain ⟨hQ, hhome, hnear, hmutual⟩ := h.root k hk r (hl.guest k r hr)
    refine ⟨hQ, fun hnil => hhome ((hl.nonempty _).1 hnil), hnear, fun hback => ?_⟩
    obtain ⟨r', hr', hid⟩ := map_eq_some_iff.1 hback
    exact hmutual (map_eq_some_iff.2 ⟨r', hl.guest _ r' hr', hid⟩)

variable [DecidableEq S]

lemma linkFrom_spec {R : ℕ → Prop} (hR : ∀ k, R k → k < t.bucketCount)
    (hok : Ok (bucketId hash t.capacityLog) t.entries R) (hb : R (bucketId hash t.capacityLog x))
    (hne : (t.entries (bucketId hash t.capacityLog x)).chain ≠ []) (isLink : Bool) {work : ℕ} (hwork : ¬R work) :
    ∃ t', linkFrom hash work t isLink x (bucketId hash t.capacityLog x) = .ok t' ∧ Linked hash R x isLink t t' := by
  obtain ⟨t', hrun, hl⟩ := link_spec hR hok hb hne rfl le_rfl isLink
  refine ⟨t', ?_, hl⟩
  unfold linkFrom
  rw [hrun]
  exact if_pos (hl.frame work hwork)

end Link

/-! ## Add without growing -/

section Add
variable {S : Type} [DecidableEq S] {hash : S → UInt64} {t t' : StringSet S} {x : S}

structure Inv (hash : S → UInt64) (t : StringSet S) : Prop where
  count : t.bucketCount = 2 ^ t.capacityLog
  log : t.capacityLog ≤ 32
  ok : Ok (bucketId hash t.capacityLog) t.entries (· < t.bucketCount)
  outside : ∀ k, t.bucketCount ≤ k → t.entries k = {}
  nodup : (total strings t).Nodup
  chained : t.numChainEntries + t.numUsedBuckets = .ofNat (total strings t).card
  counted : t.numUsedBuckets = .ofNat (total used t)
  room : t.capacityLog < 32 → (total strings t).card + 2 ≤ t.bucketCount + total used t

lemma bucketId_eq {c : ℕ} (hc : c ≤ 32) (x : S) : bucketId hash c x = (hash x).toNat / 2 ^ (64 - c) ∧
    bucketId hash c x < 2 ^ c := by
  have hlt : (hash x).toNat / 2 ^ (64 - c) < 2 ^ c := by
    rw [Nat.div_lt_iff_lt_mul (by positivity), ← Nat.pow_add, Nat.add_sub_cancel' (by omega)]
    exact (hash x).toNat_lt
  have hmod : bucketId hash c x = (hash x).toNat / 2 ^ (64 - c) :=
    Nat.mod_eq_of_lt (lt_of_lt_of_le hlt (Nat.pow_le_pow_right (by decide) hc))
  exact ⟨hmod, hmod ▸ hlt⟩

lemma Inv.bucketId_lt (h : Inv hash t) (x : S) : bucketId hash t.capacityLog x < t.bucketCount := by
  rw [h.count]
  exact (bucketId_eq h.log x).2

lemma findEmptyAround_spec {bid : ℕ} (hb : bid < t.bucketCount) (h : t.findEmptyAround bid < 2) :
    ∃ d flag, (∀ x, t.setFlat bid (t.findEmptyAround bid) x =
        { t.put d ⟨flag, [x]⟩ with numUsedBuckets := t.numUsedBuckets + 1 }) ∧
      d < t.bucketCount ∧ (t.entries d).chain = [] ∧
      (flag = false ∧ d = bid ∨ flag = true ∧ (bid = d + 1 ∨ bid + 1 = d) ∧ (t.entries bid).chain ≠ []) := by
  unfold findEmptyAround at h ⊢
  split_ifs at h ⊢ with h0 h1 h2
  · exact ⟨bid, false, fun x => by simp [setFlat], hb, h0, Or.inl ⟨rfl, rfl⟩⟩
  · exact ⟨bid + 1, true, fun x => by simp [setFlat], h1.1, h1.2, Or.inr ⟨rfl, Or.inr rfl, h0⟩⟩
  · refine ⟨bid - 1, true, fun x => ?_, by omega, h2.2, Or.inr ⟨rfl, Or.inl (by omega), h0⟩⟩
    have hplace : ((bid : ℤ) + -1).toNat = bid - 1 := by omega
    unfold setFlat
    rw [hplace]
    rfl
  · exact absurd h (by decide)

lemma place_totals {d : ℕ} (hd : d < t.bucketCount) (hempty : (t.entries d).chain = []) (flag : Bool)
    (x : S) : total strings (t.put d ⟨flag, [x]⟩) = x ::ₘ total strings t ∧
      total used (t.put d ⟨flag, [x]⟩) = total used t + 1 := by
  refine ⟨total_strings_put t hd (by rw [hempty]; rfl), ?_⟩
  have h := total_put used t hd ⟨flag, [x]⟩
  simpa [used, hempty] using h

lemma outside_update {e : ℕ → Bucket S} {n d : ℕ} (h : ∀ k, n ≤ k → e k = {}) (hd : d < n) (b : Bucket S) :
    ∀ k, n ≤ k → Function.update e d b k = {} := by
  intro k hk
  rw [update_of_ne (by omega)]
  exact h k hk

lemma Inv.setFlat (h : Inv hash t) (hx : x ∉ total strings t)
    (hoffs : t.findEmptyAround (bucketId hash t.capacityLog x) < 2) :
    let t' := t.setFlat (bucketId hash t.capacityLog x) (t.findEmptyAround (bucketId hash t.capacityLog x)) x
    Inv hash t' ∧ total strings t' = x ::ₘ total strings t ∧ t'.size = t.size := by
  have hid := h.bucketId_lt x
  obtain ⟨d, flag, hset, hd, hempty, hflag⟩ := findEmptyAround_spec hid hoffs
  obtain ⟨hstrings, hused⟩ := place_totals hd hempty flag x
  intro t'
  rw [show t' = _ from hset x]
  refine ⟨⟨h.count, h.log, h.ok.place hempty hid hflag, outside_update h.outside hd _, ?_, ?_, ?_, ?_⟩, hstrings, rfl⟩
  · show (total strings (t.put d _)).Nodup
    rw [hstrings]
    exact Multiset.nodup_cons.2 ⟨hx, h.nodup⟩
  · show t.numChainEntries + (t.numUsedBuckets + 1) = .ofNat (total strings (t.put d _)).card
    rw [hstrings, Multiset.card_cons, ← UInt32.add_assoc, h.chained, UInt32.ofNat_add]
    rfl
  · show t.numUsedBuckets + 1 = .ofNat (total used (t.put d _))
    rw [hused, h.counted, UInt32.ofNat_add]
    rfl
  · show t.capacityLog < 32 → (total strings (t.put d _)).card + 2 ≤ t.bucketCount + total used (t.put d _)
    rw [hstrings, hused, Multiset.card_cons]
    have hroom := h.room
    omega

lemma card_total (t : StringSet S) : (total strings t).card = total used t + total links t := by
  unfold total
  rw [Multiset.card_sum, ← Finset.sum_add_distrib]
  refine Finset.sum_congr rfl (fun k _ => ?_)
  unfold strings used links
  cases (t.entries k).chain with
  | nil => rfl
  | cons x xs => simp [Nat.add_comm]

lemma used_pos {k : ℕ} (hk : k < t.bucketCount) (h : (t.entries k).chain ≠ []) : 0 < total used t := by
  have hle : used (t.entries k) ≤ total used t :=
    Finset.single_le_sum (f := fun k => used (t.entries k)) (fun _ _ => Nat.zero_le _) (Finset.mem_range.2 hk)
  have hone : used (t.entries k) = 1 := if_neg h
  omega

lemma used_le (t : StringSet S) : total used t ≤ t.bucketCount := by
  calc total used t ≤ ∑ _k ∈ Finset.range t.bucketCount, 1 := by
        refine Finset.sum_le_sum (fun k _ => ?_)
        unfold used
        split_ifs <;> omega
    _ = t.bucketCount := by simp

lemma mem_chain_cases {b : Bucket S} (h : x ∈ b.chain) : x ∈ b.seated ∨ b.guest = some x := by
  unfold Bucket.seated Bucket.guest
  cases b.displaced with
  | false => exact Or.inl h
  | true =>
    cases hc : b.chain with
    | nil => rw [hc] at h; cases h
    | cons r rest =>
      rw [hc] at h
      rcases mem_cons.1 h with rfl | h
      · exact Or.inr rfl
      · exact Or.inl h

lemma Inv.findAround_iff (h : Inv hash t) (x : S) :
    t.findAround x (bucketId hash t.capacityLog x) < 2 ↔ x ∈ total strings t := by
  set bid := bucketId hash t.capacityLog x with hbid
  have hlt : bid < t.bucketCount := h.bucketId_lt x
  rw [mem_total]
  unfold findAround
  constructor
  · intro hfound
    split_ifs at hfound with h0 h1 h2
    · exact ⟨bid, hlt, h0⟩
    · exact ⟨bid - 1, by omega, mem_of_head? h1.2⟩
    · exact ⟨bid + 1, h2.1, mem_of_head? h2.2⟩
    · exact absurd hfound (by decide)
  · rintro ⟨k, hk, hx⟩
    rcases mem_chain_cases hx with hseat | hguest
    · have hhome : bid = k := h.ok.own k hk x hseat
      rw [hhome, if_pos hx]
      decide
    · have hroot : (t.entries k).chain.head? = some x := by
        unfold Bucket.guest at hguest
        split_ifs at hguest
        exact hguest
      obtain ⟨-, -, hnear, -⟩ := h.ok.root k hk x hguest
      split_ifs with h0 h1 h2
      · decide
      · decide
      · decide
      · rcases hnear with hnear | hnear
        · exact absurd ⟨by omega, by rw [show bid - 1 = k by omega]; exact hroot⟩ h1
        · exact absurd ⟨by omega, by rw [show bid + 1 = k by omega]; exact hroot⟩ h2

lemma Inv.way (h : Inv hash t) {b : ℕ} (hb : b < t.bucketCount) {r : S}
    (hr : (t.entries b).guest = some r) : ∃ R : ℕ → Prop, (∀ k, R k → k < t.bucketCount) ∧ ¬R b ∧
      R (bucketId hash t.capacityLog r) ∧ Ok (bucketId hash t.capacityLog) t.entries R := by
  obtain ⟨-, -, hnear, hmutual⟩ := h.ok.root b hb r hr
  have hback : ∀ r', (t.entries (bucketId hash t.capacityLog r)).guest = some r' →
      bucketId hash t.capacityLog r' ≠ b := by
    intro r' hr' heq
    exact hmutual (map_eq_some_iff.2 ⟨r', hr', heq⟩)
  rcases hnear with hnear | hnear
  · refine ⟨fun k => b < k ∧ k < t.bucketCount, fun k hk => hk.2, fun hk => by omega, ⟨by omega, h.bucketId_lt r⟩,
      h.ok.side (fun k hk => hk.2) (fun k r' hk hr' => ⟨?_, h.bucketId_lt r'⟩)⟩
    rcases (h.ok.root k hk.2 r' hr').2.2.1 with hn | hn
    · omega
    · have hne : bucketId hash t.capacityLog r' ≠ b := fun heq =>
        hback r' (by rw [show bucketId hash t.capacityLog r = k by omega]; exact hr') heq
      omega
  · refine ⟨fun k => k < b, fun k hk => by omega, fun hk => by omega, by omega,
      h.ok.side (fun k hk => by omega) (fun k r' hk hr' => ?_)⟩
    rcases (h.ok.root k (by omega) r' hr').2.2.1 with hn | hn
    · have hne : bucketId hash t.capacityLog r' ≠ b := fun heq =>
        hback r' (by rw [show bucketId hash t.capacityLog r = k by omega]; exact hr') heq
      omega
    · omega

lemma Inv.chain (h : Inv hash t) (hx : x ∉ total strings t)
    (hfixed : t' = { t with entries := t'.entries, numChainEntries := t.numChainEntries + 1 })
    (hok : Ok (bucketId hash t.capacityLog) t'.entries (· < t.bucketCount))
    (hout : ∀ k, t.bucketCount ≤ k → t'.entries k = {})
    (hempty : ∀ k, (t'.entries k).chain = [] ↔ (t.entries k).chain = [])
    (hcontent : total strings t' = x ::ₘ total strings t)
    (hroom : t.capacityLog < 32 → (total strings t).card + 1 + 2 ≤ t.bucketCount + total used t) :
    Inv hash t' ∧ total strings t' = x ::ₘ total strings t ∧ t'.size = t.size := by
  have hn : t'.bucketCount = t.bucketCount := by rw [hfixed]
  have hc : t'.capacityLog = t.capacityLog := by rw [hfixed]
  have hchain : t'.numChainEntries = t.numChainEntries + 1 := by rw [hfixed]
  have hused : t'.numUsedBuckets = t.numUsedBuckets := by rw [hfixed]
  have hsame := total_used_congr hn hempty
  refine ⟨⟨by rw [hn, hc, h.count], by rw [hc]; exact h.log, by rw [hn, hc]; exact hok,
    by rw [hn]; exact hout, ?_, ?_, ?_,
    by rw [hn, hc, hcontent, hsame, Multiset.card_cons]; exact hroom⟩, hcontent, by rw [hfixed]⟩
  · rw [hcontent]
    exact Multiset.nodup_cons.2 ⟨hx, h.nodup⟩
  · rw [hchain, hused, hcontent, Multiset.card_cons, UInt32.ofNat_add, ← h.chained, add_swap]
    rfl
  · rw [hused, h.counted, hsame]

lemma Inv.addToChain (h : Inv hash t) (hx : x ∉ total strings t)
    (hne : (t.entries (bucketId hash t.capacityLog x)).chain ≠ [])
    (hroom : t.capacityLog < 32 → (total strings t).card + 1 < t.bucketCount) :
    ∃ t', t.addToChain hash x = .ok t' ∧ Inv hash t' ∧ total strings t' = x ::ₘ total strings t ∧ t'.size = t.size := by
  set bid := bucketId hash t.capacityLog x with hbid
  have hlt : bid < t.bucketCount := h.bucketId_lt x
  have hroom' : t.capacityLog < 32 → (total strings t).card + 1 + 2 ≤ t.bucketCount + total used t := by
    intro hlog
    have hpos := used_pos hlt hne
    have hroom := hroom hlog
    omega
  obtain ⟨root, rest, hc⟩ := exists_cons_of_ne_nil hne
  have hold := h.ok.own bid hlt
  unfold Bucket.seated at hold
  rw [hc] at hold
  unfold StringSet.addToChain
  rw [← hbid]
  dsimp only
  rw [hc]
  cases hd : (t.entries bid).displaced with
  | true =>
    rw [hd] at hold
    have hguest : (t.entries bid).guest = some root := by
      unfold Bucket.guest
      rw [hd, hc]
      rfl
    obtain ⟨R, hR, hnot, hin, hok⟩ := h.way hlt hguest
    obtain ⟨t₁, hrun, hl⟩ := linkFrom_spec hR hok hin (h.ok.root bid hlt root hguest).2.1 false hnot
    have hsame : t₁.entries bid = t.entries bid := hl.frame bid hnot
    have hn : t₁.bucketCount = t.bucketCount := by rw [hl.fixed]
    have hlt₁ : bid < t₁.bucketCount := hn ▸ hlt
    have hown : ∀ y ∈ (⟨false, x :: rest⟩ : Bucket S).seated, bucketId hash t.capacityLog y = bid := by
      intro y hy
      rcases mem_cons.1 hy with rfl | hy
      · rfl
      · exact hold y hy
    refine ⟨t₁.put bid ⟨false, x :: rest⟩, by dsimp only; rw [if_pos rfl, hrun],
      h.chain hx ?_ ?_ ?_ (fun k => ?_) ?_ hroom'⟩
    · have hfixed := hl.fixed
      rw [if_neg Bool.false_ne_true] at hfixed
      unfold put
      rw [hfixed]
    · exact (hl.okAll h.ok).put hown nofun (cons_ne_nil _ _)
    · refine outside_update (fun k hk => ?_) hlt _
      rw [hl.frame k (fun hRk => absurd (hR k hRk) (by omega))]
      exact h.outside k hk
    · exact (put_nonempty (cons_ne_nil _ _) (by rw [hsame]; exact hne)).trans (hl.nonempty k)
    · have hput := total_put strings t₁ hlt₁ ⟨false, x :: rest⟩
      have hout : strings (t₁.entries bid) = root ::ₘ (rest : Multiset S) := by rw [hsame]; exact congrArg _ hc
      have hnew : strings (⟨false, x :: rest⟩ : Bucket S) = x ::ₘ (rest : Multiset S) := rfl
      have hswap : (root ::ₘ total strings t) + (x ::ₘ (rest : Multiset S)) =
          (x ::ₘ total strings t) + (root ::ₘ (rest : Multiset S)) := by
        rw [Multiset.add_cons, Multiset.add_cons, Multiset.cons_add, Multiset.cons_add, Multiset.cons_swap]
      rw [hout, hnew, hl.content, hswap] at hput
      exact add_right_cancel hput
  | false =>
    rw [hd] at hold
    have hown : ∀ y ∈ (⟨false, x :: root :: rest⟩ : Bucket S).seated, bucketId hash t.capacityLog y = bid := by
      intro y hy
      rcases mem_cons.1 hy with rfl | hy
      · rfl
      · exact hold y hy
    refine ⟨{ t.put bid ⟨false, x :: root :: rest⟩ with numChainEntries := t.numChainEntries + 1 },
      by dsimp only; rw [if_neg Bool.false_ne_true], h.chain hx rfl (h.ok.put hown nofun (cons_ne_nil _ _))
      (outside_update h.outside hlt _) (fun k => put_nonempty (cons_ne_nil _ _) hne)
      (total_strings_put t hlt (by rw [hc]; rfl)) hroom'⟩

end Add

/-! ## Grow -/

section Grow
variable {S : Type} [DecidableEq S] {hash : S → UInt64} {t t' : StringSet S} {x : S} {i : ℕ} {kept rest : List S}
  {moved : Bool}
  {id : S → ℕ} {e e' : ℕ → Bucket S}

/-- The buckets below `i` are as they were in the smaller table, but for strings of bucket 0. A guest of bucket 1 that
goes to bucket 0 finds its home there. -/
structure Old (id : S → ℕ) (e : ℕ → Bucket S) (i : ℕ) : Prop where
  own : ∀ j < i, ∀ x ∈ (e j).seated, id x / 2 = j
  root : ∀ j < i, ∀ r, (e j).guest = some r → id r / 2 = j + 1 ∨ id r / 2 + 1 = j
  pair : 1 < i → ∀ r, (e 1).guest = some r → id r / 2 = 0 → (e 0).chain ≠ [] ∧ (e 0).guest = none

lemma Old.congr (h : Old id e i) (heq : ∀ j < i, e' j = e j) :
    Old id e' i := by
  refine ⟨fun j hj => ?_, fun j hj => ?_, fun hi => ?_⟩
  · rw [heq j hj]
    exact h.own j hj
  · rw [heq j hj]
    exact h.root j hj
  · rw [heq 1 hi, heq 0 (by omega)]
    exact h.pair hi

lemma Ok.congr {R : ℕ → Prop} (h : Ok id e R) (heq : ∀ k, R k → e' k = e k) :
    Ok id e' R := by
  refine ⟨fun k hk => ?_, fun k hk r hr => ?_⟩
  · rw [heq k hk]
    exact h.own k hk
  · rw [heq k hk] at hr
    have hroot := h.root k hk r hr
    rw [heq _ hroot.1]
    exact hroot

/-- the table while `Grow` is at bucket `i`: from there on it is the new one -/
structure Growing (hash : S → UInt64) (i : ℕ) (t : StringSet S) : Prop where
  ok : Ok (bucketId hash t.capacityLog) t.entries (fun k => i ≤ k ∧ k < t.bucketCount)
  old : Old (bucketId hash t.capacityLog) t.entries i
  chained : t.numChainEntries + t.numUsedBuckets = .ofNat (total strings t).card
  counted : t.numUsedBuckets = .ofNat (total used t)

structure Mid (hash : S → UInt64) (i : ℕ) (kept rest : List S) (moved : Bool) (t : StringSet S) : Prop where
  log : t.capacityLog ≤ 32
  count : t.bucketCount = 2 ^ t.capacityLog
  bound : i < t.bucketCount
  ok : Ok (bucketId hash t.capacityLog) t.entries (fun k => i < k ∧ k < t.bucketCount)
  old : Old (bucketId hash t.capacityLog) t.entries i
  here : (t.entries i).chain = kept ++ rest
  clear : rest = [] → (t.entries i).displaced = false
  home : ∀ x ∈ kept, bucketId hash t.capacityLog x = i
  target : ∀ x ∈ rest, i ≤ bucketId hash t.capacityLog x ∨
    i = 1 ∧ bucketId hash t.capacityLog x = 0 ∧ (t.entries 0).chain ≠ [] ∧ (t.entries 0).guest = none
  chained : t.numChainEntries + t.numUsedBuckets =
    .ofNat ((total strings t).card + if rest = [] ∧ (moved = true ∨ kept = []) then 1 else 0)
  counted : t.numUsedBuckets = .ofNat (total used t + if kept ++ rest = [] then 1 else 0)

structure Rehashed (t t' : StringSet S) : Prop where
  fixed : t' = { t with
    entries := t'.entries, numChainEntries := t'.numChainEntries, numUsedBuckets := t'.numUsedBuckets }
  content : total strings t' = total strings t
  outside : ∀ k, t.bucketCount ≤ k → t'.entries k = t.entries k

lemma Rehashed.trans {a b c : StringSet S} (h : Rehashed a b) (h' : Rehashed b c) : Rehashed a c := by
  have hn : b.bucketCount = a.bucketCount := by rw [h.fixed]
  refine ⟨?_, h'.content.trans h.content, fun k hk => (h'.outside k (by omega)).trans (h.outside k hk)⟩
  have hb := h.fixed
  have hc := h'.fixed
  rw [hb] at hc
  exact hc

/-- a string of bucket `i` has been put elsewhere: into an empty bucket (`used`), or behind another one (`linked`) -/
structure Added (hash : S → UInt64) (i : ℕ) (x : S) (last : Bool) (flat : ℕ) (t t' : StringSet S) : Prop where
  fixed : t' = { t with
    entries := t'.entries, numChainEntries := t'.numChainEntries, numUsedBuckets := t'.numUsedBuckets }
  here : t'.entries i = t.entries i
  ok : Ok (bucketId hash t.capacityLog) t'.entries (fun k => i < k ∧ k < t.bucketCount)
  old : Old (bucketId hash t.capacityLog) t'.entries i
  zero : i = 1 → (t.entries 0).chain ≠ [] → (t.entries 0).guest = none → (t'.entries 0).chain ≠ [] ∧
    (t'.entries 0).guest = none
  content : total strings t' = x ::ₘ total strings t
  outside : ∀ k, t.bucketCount ≤ k → t'.entries k = t.entries k
  used : total used t' = total used t + flat
  chained : t'.numChainEntries + t'.numUsedBuckets + .ofNat (if last then 0 else 1) =
    t.numChainEntries + t.numUsedBuckets + 1
  counted : t'.numUsedBuckets = t.numUsedBuckets + .ofNat flat

section
variable (h : Mid hash i kept (x :: rest) moved t)
include h

lemma Added.mid {flat : ℕ} (ha : Added hash i x (rest = []) flat t t') :
    Mid hash i kept rest true (t'.put i ⟨false, kept ++ rest⟩) ∧ Rehashed t (t'.put i ⟨false, kept ++ rest⟩) := by
  have hn : t'.bucketCount = t.bucketCount := by rw [ha.fixed]
  have hc : t'.capacityLog = t.capacityLog := by rw [ha.fixed]
  have hi : i < t'.bucketCount := hn ▸ h.bound
  have hchain : (t'.entries i).chain = kept ++ x :: rest := by rw [ha.here, h.here]
  have hother : ∀ k, k ≠ i → (t'.put i ⟨false, kept ++ rest⟩).entries k = t'.entries k := fun k hk =>
    update_of_ne hk _ _
  have hself : (t'.put i ⟨false, kept ++ rest⟩).entries i = ⟨false, kept ++ rest⟩ := update_self _ _ _
  have hcontent : total strings (t'.put i ⟨false, kept ++ rest⟩) = total strings t := by
    have hput := total_put strings t' hi ⟨false, kept ++ rest⟩
    have hout : strings (t'.entries i) = x ::ₘ (kept ++ rest : List S) := by
      unfold strings
      rw [hchain]
      exact Multiset.coe_eq_coe.2 perm_middle
    rw [hout, ha.content, Multiset.add_cons, Multiset.cons_add, Multiset.cons_inj_right] at hput
    exact add_right_cancel hput
  refine ⟨⟨?_, ?_, hi, ?_, ?_, by rw [hself], by rw [hself]; exact fun _ => rfl, ?_, ?_, ?_, ?_⟩, ?_, ?_, ?_⟩
  · exact hc ▸ h.log
  · exact hn ▸ hc ▸ h.count
  · show Ok (bucketId hash t'.capacityLog) _ (fun k => i < k ∧ k < t'.bucketCount)
    rw [hc, hn]
    exact ha.ok.congr (fun k hk => hother k (by omega))
  · show Old (bucketId hash t'.capacityLog) _ i
    rw [hc]
    exact ha.old.congr (fun j hj => hother j (by omega))
  · show ∀ y ∈ kept, bucketId hash t'.capacityLog y = i
    rw [hc]
    exact h.home
  · intro y hy
    have htarget := h.target y (mem_cons_of_mem x hy)
    rw [← hc] at htarget
    rcases htarget with hle | ⟨hone, hzero, hne, hguest⟩
    · exact Or.inl hle
    · refine Or.inr ⟨hone, hzero, ?_⟩
      rw [hother 0 (by omega)]
      exact ha.zero hone hne hguest
  · have hold := h.chained
    have hadd := ha.chained
    rw [if_neg (by simp), Nat.add_zero] at hold
    rw [hold] at hadd
    show t'.numChainEntries + t'.numUsedBuckets = .ofNat ((total strings (t'.put i _)).card + _)
    rw [hcontent]
    by_cases hrest : rest = []
    · simp only [hrest, decide_true, if_true] at hadd
      rw [if_pos ⟨hrest, Or.inl rfl⟩, UInt32.ofNat_add]
      exact (UInt32.add_zero _).symm.trans hadd
    · simp only [hrest, decide_false, Bool.false_eq_true, if_false] at hadd
      rw [if_neg (fun hand => hrest hand.1), Nat.add_zero]
      exact (UInt32.add_left_inj _).1 hadd
  · have hput := total_put StringSet.used t' hi ⟨false, kept ++ rest⟩
    have hold := h.counted
    rw [if_neg (by simp), Nat.add_zero] at hold
    simp only [StringSet.used, hchain, append_eq_nil_iff, reduceCtorEq, and_false, if_false] at hput
    show t'.numUsedBuckets = _
    rw [ha.counted, hold, ← UInt32.ofNat_add, ← ha.used]
    congr 1
    simp only [append_eq_nil_iff] at hput ⊢
    split_ifs at hput ⊢ with hnil
    · omega
    · omega
  · have hfixed := ha.fixed
    unfold put
    rw [hfixed]
  · exact hcontent
  · intro k hk
    rw [hother k (by omega)]
    exact ha.outside k hk

lemma Added.flat (hne : bucketId hash t.capacityLog x ≠ i)
    (hoffs : t.findEmptyAround (bucketId hash t.capacityLog x) < 2) :
    let t' := t.setFlat (bucketId hash t.capacityLog x) (t.findEmptyAround (bucketId hash t.capacityLog x)) x
    Added hash i x (rest = []) 1 t
      (if rest = [] then t' else { t' with numChainEntries := t'.numChainEntries - 1 }) := by
  have hid : bucketId hash t.capacityLog x < t.bucketCount := by
    rw [h.count]
    exact (bucketId_eq h.log x).2
  have hhere : (t.entries i).chain ≠ [] := by rw [h.here]; simp
  obtain ⟨d, flag, hset, hd, hempty, hflag⟩ := findEmptyAround_spec hid hoffs
  obtain ⟨hstrings, hused⟩ := place_totals hd hempty flag x
  have hdi : d ≠ i := by
    rintro rfl
    exact hhere hempty
  -- bucket 1 is not left for bucket 0 this way, since neither is empty
  have hup : i < bucketId hash t.capacityLog x := by
    rcases h.target x mem_cons_self with hle | ⟨rfl, hzero, hnil, -⟩
    · omega
    · exfalso
      rw [hzero] at hflag
      rcases hflag with ⟨-, rfl⟩ | ⟨-, hnear, -⟩
      · exact hnil hempty
      · exact hdi (by omega)
  have hdup : i < d := by
    rcases hflag with ⟨-, rfl⟩ | ⟨-, hnear, -⟩
    · exact hup
    · omega
  intro t'
  have ht' : t' = { t.put d ⟨flag, [x]⟩ with numUsedBuckets := t.numUsedBuckets + 1 } := hset x
  have hother : ∀ k, k ≠ d → t'.entries k = t.entries k := by
    intro k hk
    rw [ht']
    exact update_of_ne hk _ _
  have hok : Ok (bucketId hash t.capacityLog) t'.entries (fun k => i < k ∧ k < t.bucketCount) := by
    rw [ht']
    exact h.ok.place hempty ⟨hup, hid⟩ hflag
  have hadded : ∀ n, n + UInt32.ofNat (if (decide (rest = [])) = true then 0 else 1) = t.numChainEntries →
      Added hash i x (rest = []) 1 t { t' with numChainEntries := n } := by
    intro n hn
    refine ⟨by rw [ht']; rfl, hother i (Ne.symm hdi), hok, h.old.congr (fun j hj => hother j (by omega)), ?_, ?_,
      fun k hk => hother k (by omega), ?_, ?_, by rw [ht']; rfl⟩
    · intro hone hnil hguest
      show (t'.entries 0).chain ≠ [] ∧ (t'.entries 0).guest = none
      rw [hother 0 (by omega)]
      exact ⟨hnil, hguest⟩
    · show total strings t' = _
      rw [ht']
      exact hstrings
    · show total StringSet.used t' = _
      rw [ht']
      exact hused
    · show n + t'.numUsedBuckets + _ = _
      rw [add_swap, hn, ht', UInt32.add_assoc]
  have hsame : t'.numChainEntries = t.numChainEntries := by rw [ht']; rfl
  split_ifs with hrest
  · exact hadded t'.numChainEntries (by rw [hsame]; simp [hrest])
  · exact hadded (t'.numChainEntries - 1) (by rw [hsame]; simp [hrest])

lemma Added.linked (hne : bucketId hash t.capacityLog x ≠ i)
    (hoffs : ¬t.findEmptyAround (bucketId hash t.capacityLog x) < 2) :
    ∃ t', linkFrom hash i t (rest ≠ []) x (bucketId hash t.capacityLog x) = .ok t' ∧
      Added hash i x (rest = []) 0 t t' := by
  have hid : bucketId hash t.capacityLog x < t.bucketCount := by
    rw [h.count]
    exact (bucketId_eq h.log x).2
  have hchain : (t.entries (bucketId hash t.capacityLog x)).chain ≠ [] := by
    intro hnil
    unfold findEmptyAround at hoffs
    rw [if_pos hnil] at hoffs
    exact hoffs (by decide)
  have hnodes : t.numChainEntries + (if (decide (rest ≠ [])) = true then 0 else 1) + t.numUsedBuckets +
      .ofNat (if (decide (rest = [])) = true then 0 else 1) = t.numChainEntries + t.numUsedBuckets + 1 := by
    by_cases hrest : rest = []
    · simp [hrest, add_swap _ 1]
    · simp [hrest]
  rcases h.target x mem_cons_self with hle | ⟨rfl, hzero, hnil, hguest⟩
  · have hwork : ¬(i < i ∧ i < t.bucketCount) := fun hi => by omega
    obtain ⟨t', hrun, hl⟩ := linkFrom_spec (fun k hk => hk.2) h.ok ⟨by omega, hid⟩ hchain (rest ≠ []) hwork
    have hn : t'.bucketCount = t.bucketCount := by rw [hl.fixed]
    refine ⟨t', hrun, ?_, hl.frame i (fun hi => by omega), hl.ok,
      h.old.congr (fun j hj => hl.frame j (fun hi => by omega)), fun _ hne0 hg0 => ?_, hl.content,
      fun k hk => hl.frame k (fun hi => by omega), (total_used_congr hn hl.nonempty).trans (Nat.add_zero _).symm,
      by rw [hl.fixed]; exact hnodes, by rw [hl.fixed]; simp⟩
    · have hfixed := hl.fixed
      rw [hfixed]
    · rw [hl.frame 0 (fun hi => by omega)]
      exact ⟨hne0, hg0⟩
  · -- bucket 0 has not been rehashed yet, and has no guest
    rw [hzero] at hchain hoffs ⊢
    obtain ⟨root, others, hc⟩ := exists_cons_of_ne_nil hchain
    have hd : (t.entries 0).displaced = false := by
      cases hd : (t.entries 0).displaced with
      | false => rfl
      | true =>
        unfold Bucket.guest at hguest
        rw [hd, hc] at hguest
        cases hguest
    set b : Bucket S := ⟨(t.entries 0).displaced, root :: x :: others⟩ with hb
    have hnone : b.guest = none := by
      unfold Bucket.guest
      rw [hb, hd]
      rfl
    have hn : 0 < t.bucketCount := by have := h.bound; omega
    obtain ⟨t', ht'⟩ : ∃ t' : StringSet S, t' =
        { t.put 0 b with
          numChainEntries := t.numChainEntries + if (decide (rest ≠ [])) = true then 0 else 1 } := ⟨_, rfl⟩
    have hplain : link hash t.numDisplaced t (decide (rest ≠ [])) x 0 = .ok t' := by
      rw [ht']
      exact link_plain _ hc (fun hand => by rw [hd] at hand; cases hand.1)
    have hself : t'.entries 0 = b := by
      rw [ht']
      show Function.update t.entries 0 b 0 = b
      exact update_self _ _ _
    have hother : ∀ k, k ≠ 0 → t'.entries k = t.entries k := by
      intro k hk
      rw [ht']
      exact update_of_ne hk _ _
    refine ⟨t', by unfold linkFrom; rw [hplain]; exact if_pos (hother 1 Nat.one_ne_zero), by rw [ht']; rfl,
      hother 1 Nat.one_ne_zero, h.ok.congr (fun k hk => hother k (by omega)),
      ⟨fun j hj y hy => ?_, fun j hj r hr => ?_, fun hlt => absurd hlt (by decide)⟩, fun _ _ _ => ?_, ?_,
      fun k hk => hother k (by omega), ?_, by rw [ht']; exact hnodes, by rw [ht']; simp [put]⟩
    · obtain rfl : j = 0 := by omega
      have hold := h.old.own 0 hj
      unfold Bucket.seated at hold
      rw [hd, hc] at hold
      have hseat : (t'.entries 0).seated = root :: x :: others := by
        rw [hself]
        unfold Bucket.seated
        rw [hb, hd]
        rfl
      rw [hseat] at hy
      rcases mem_cons.1 hy with rfl | hy
      · exact hold y mem_cons_self
      · rcases mem_cons.1 hy with rfl | hy
        · rw [hzero]
        · exact hold y (mem_cons_of_mem _ hy)
    · obtain rfl : j = 0 := by omega
      rw [hself, hnone] at hr
      cases hr
    · rw [hself]
      exact ⟨cons_ne_nil _ _, hnone⟩
    · rw [ht']
      refine total_strings_put t hn ?_
      rw [hc]
      exact Multiset.cons_swap root x others
    · rw [ht']
      exact total_used_congr rfl (fun k => put_nonempty (cons_ne_nil _ _) hchain)

lemma Mid.stay (hhome : bucketId hash t.capacityLog x = i) :
    Mid hash i (kept ++ [x]) rest false (t.put i ⟨false, kept ++ x :: rest⟩) ∧
      Rehashed t (t.put i ⟨false, kept ++ x :: rest⟩) := by
  set b : Bucket S := ⟨false, kept ++ x :: rest⟩ with hb
  have hcontent : total strings (t.put i b) = total strings t := by
    have hput := total_put strings t h.bound b
    unfold strings at hput
    rw [h.here] at hput
    exact add_right_cancel hput
  have hother : ∀ k, k ≠ i → (t.put i b).entries k = t.entries k := fun k hk => update_of_ne hk _ _
  have hself : (t.put i b).entries i = b := update_self _ _ _
  have hchained := h.chained
  have hcounted := h.counted
  rw [if_neg (by simp), Nat.add_zero] at hchained hcounted
  refine ⟨⟨h.log, h.count, h.bound, h.ok.congr (fun k hk => hother k (by omega)),
    h.old.congr (fun j hj => hother j (by omega)), by rw [hself, hb]; simp, by rw [hself]; exact fun _ => rfl,
      ?_, ?_, ?_, ?_⟩,
    rfl, hcontent, fun k hk => hother k (by have := h.bound; omega)⟩
  · intro y hy
    rcases mem_append.1 hy with hy | hy
    · exact h.home y hy
    · rw [mem_singleton.1 hy]
      exact hhome
  · intro y hy
    rcases h.target y (mem_cons_of_mem x hy) with hle | ⟨hone, hzero, hnil⟩
    · exact Or.inl hle
    · refine Or.inr ⟨hone, hzero, ?_⟩
      rw [hother 0 (by omega)]
      exact hnil
  · rw [if_neg (by simp), Nat.add_zero, hcontent]
    exact hchained
  · rw [if_neg (by simp), Nat.add_zero]
    have hput := total_put used t h.bound b
    unfold used at hput
    rw [h.here] at hput
    exact hcounted.trans (congrArg _ (add_right_cancel hput).symm)

end

theorem rehash_spec (h : Mid hash i kept rest moved t) :
    ∃ t', rehash hash i kept rest moved t = .ok t' ∧ Rehashed t t' ∧ Growing hash i t' := by
  induction rest generalizing kept moved t with
  | nil =>
    have hok : Ok (bucketId hash t.capacityLog) t.entries (fun k => i ≤ k ∧ k < t.bucketCount) := by
      have hseat : ∀ x ∈ (t.entries i).seated, bucketId hash t.capacityLog x = i := by
        unfold Bucket.seated
        rw [h.clear rfl, h.here, append_nil]
        exact h.home
      have hguest : (t.entries i).guest = none := by
        unfold Bucket.guest
        rw [h.clear rfl]
        rfl
      refine ⟨fun k hk => ?_, fun k hk r hr => ?_⟩
      · rcases Nat.eq_or_lt_of_le hk.1 with rfl | hlt
        · exact hseat
        · exact h.ok.own k ⟨hlt, hk.2⟩
      · rcases Nat.eq_or_lt_of_le hk.1 with rfl | hlt
        · rw [hguest] at hr
          cases hr
        · obtain ⟨hR, hrest⟩ := h.ok.root k ⟨hlt, hk.2⟩ r hr
          exact ⟨⟨hR.1.le, hR.2⟩, hrest⟩
    have hchained := h.chained
    have hcounted := h.counted
    rw [rehash]
    by_cases hkept : kept = []
    · subst hkept
      rw [if_pos ⟨rfl, Or.inr rfl⟩, UInt32.ofNat_add] at hchained
      rw [if_pos (by simp), UInt32.ofNat_add] at hcounted
      refine ⟨{ t with numUsedBuckets := t.numUsedBuckets - 1 }, by simp, ⟨rfl, rfl, fun k hk => rfl⟩,
        ⟨hok, h.old, add_pred hchained, ?_⟩⟩
      show t.numUsedBuckets - 1 = _
      rw [hcounted]
      exact UInt32.add_sub_cancel _ _
    · rw [if_neg (by simpa using hkept), Nat.add_zero] at hcounted
      cases moved with
      | false =>
        rw [if_neg (by simpa using hkept), Nat.add_zero] at hchained
        exact ⟨t, by simp [hkept], ⟨rfl, rfl, fun k hk => rfl⟩, ⟨hok, h.old, hchained, hcounted⟩⟩
      | true =>
        rw [if_pos ⟨rfl, Or.inl rfl⟩, UInt32.ofNat_add, UInt32.add_comm] at hchained
        exact ⟨{ t with numChainEntries := t.numChainEntries - 1 }, by simp [hkept], ⟨rfl, rfl, fun k hk => rfl⟩,
          ⟨hok, h.old, (UInt32.add_comm _ _).trans (add_pred hchained), hcounted⟩⟩
  | cons x rest ih =>
    rw [rehash]
    dsimp only
    by_cases hhome : bucketId hash t.capacityLog x = i
    · rw [if_pos hhome]
      obtain ⟨hmid, hre⟩ := h.stay hhome
      obtain ⟨t', hrun, hre', hg⟩ := ih hmid
      exact ⟨t', hrun, hre.trans hre', hg⟩
    · rw [if_neg hhome]
      by_cases hoffs : t.findEmptyAround (bucketId hash t.capacityLog x) < 2
      · rw [if_pos hoffs]
        obtain ⟨hmid, hre⟩ := Added.mid h (Added.flat h hhome hoffs)
        obtain ⟨t', hrun, hre', hg⟩ := ih hmid
        exact ⟨t', hrun, hre.trans hre', hg⟩
      · rw [if_neg hoffs]
        obtain ⟨t₁, hlink, hadded⟩ := Added.linked h hhome hoffs
        obtain ⟨hmid, hre⟩ := Added.mid h hadded
        obtain ⟨t', hrun, hre', hg⟩ := ih hmid
        exact ⟨t', by rw [hlink]; exact hrun, hre.trans hre', hg⟩

lemma Old.mono (h : Old id e (i + 1)) : Old id e i :=
  ⟨fun j hj => h.own j (by omega), fun j hj => h.root j (by omega), fun hi => h.pair (by omega)⟩

lemma Growing.mid (h : Growing hash (i + 1) t) (hlog : t.capacityLog ≤ 32)
    (hcount : t.bucketCount = 2 ^ t.capacityLog) (hi : i < t.bucketCount) (hne : (t.entries i).chain ≠ []) :
    Mid hash i [] (t.entries i).chain false t := by
  refine ⟨hlog, hcount, hi, h.ok, h.old.mono, rfl, fun hnil => absurd hnil hne, nofun, fun x hx => ?_, ?_, ?_⟩
  · rcases mem_chain_cases hx with hseat | hguest
    · have hown := h.old.own i (by omega) x hseat
      omega
    · rcases h.old.root i (by omega) x hguest with hroot | hroot
      · omega
      · by_cases hle : i ≤ bucketId hash t.capacityLog x
        · exact Or.inl hle
        · obtain rfl : i = 1 := by omega
          exact Or.inr ⟨rfl, by omega, h.old.pair (by omega) x hguest (by omega)⟩
  · rw [if_neg (fun hand => hne hand.1)]
    exact h.chained
  · rw [if_neg (by simpa using hne)]
    exact h.counted

lemma Growing.skip (h : Growing hash (i + 1) t) (hnil : (t.entries i).chain = []) :
    Growing hash i t := by
  refine ⟨⟨fun k hk x hx => ?_, fun k hk r hr => ?_⟩, h.old.mono, h.chained, h.counted⟩
  · rcases Nat.eq_or_lt_of_le hk.1 with rfl | hlt
    · unfold Bucket.seated at hx
      rw [hnil] at hx
      simp at hx
    · exact h.ok.own k ⟨hlt, hk.2⟩ x hx
  · rcases Nat.eq_or_lt_of_le hk.1 with rfl | hlt
    · rw [guest_of_nil hnil] at hr
      cases hr
    · obtain ⟨hR, hrest⟩ := h.ok.root k ⟨hlt, hk.2⟩ r hr
      exact ⟨⟨Nat.le_of_succ_le hR.1, hR.2⟩, hrest⟩

lemma growLoop_spec (h : Growing hash i t) (hlog : t.capacityLog ≤ 32)
    (hcount : t.bucketCount = 2 ^ t.capacityLog) (hi : i ≤ t.bucketCount) :
    ∃ t', growLoop hash i t = .ok t' ∧ Rehashed t t' ∧ Growing hash 0 t' := by
  induction i generalizing t with
  | zero => exact ⟨t, rfl, ⟨rfl, rfl, fun k hk => rfl⟩, h⟩
  | succ i ih =>
    rw [growLoop]
    by_cases hnil : (t.entries i).chain = []
    · rw [if_pos hnil]
      exact ih (h.skip hnil) hlog hcount (by omega)
    · rw [if_neg hnil]
      obtain ⟨t₁, hrun, hre, hg⟩ := rehash_spec (h.mid hlog hcount (by omega) hnil)
      have hn : t₁.bucketCount = t.bucketCount := by rw [hre.fixed]
      have hc : t₁.capacityLog = t.capacityLog := by rw [hre.fixed]
      obtain ⟨t', hrun', hre', hg'⟩ := ih hg (hc ▸ hlog) (by rw [hn, hc, hcount]) (by omega)
      exact ⟨t', by rw [hrun]; exact hrun', hre.trans hre', hg'⟩

lemma bucketId_half {c : ℕ} (hc : c < 32) (x : S) : bucketId hash (c + 1) x / 2 = bucketId hash c x := by
  rw [(bucketId_eq (by omega) x).1, (bucketId_eq hc.le x).1, Nat.div_div_eq_div_mul, ← Nat.pow_succ,
    show (64 - (c + 1)).succ = 64 - c by omega]

lemma total_wider {M : Type} [AddCommMonoid M] (f : Bucket S → M) (hf : f {} = 0)
    (hout : ∀ k, t.bucketCount ≤ k → t.entries k = {}) (n c : ℕ) (hn : t.bucketCount ≤ n) :
    total f { t with bucketCount := n, capacityLog := c } = total f t := by
  unfold total
  refine (Finset.sum_subset (Finset.range_mono hn) (fun k _ hk => ?_)).symm
  rw [hout k (by simpa using hk), hf]

lemma Inv.growing (h : Inv hash t) (hlog : t.capacityLog < 32) :
    Growing hash t.bucketCount { t with bucketCount := t.bucketCount * 2, capacityLog := t.capacityLog + 1 } := by
  refine ⟨⟨fun k hk x hx => ?_, fun k hk r hr => ?_⟩,
    ⟨fun j hj x hx => ?_, fun j hj r hr => ?_, fun hlt r hr hid => ?_⟩, ?_, ?_⟩
  · have hempty : t.entries k = {} := h.outside k hk.1
    rw [hempty] at hx
    cases hx
  · have hempty : t.entries k = {} := h.outside k hk.1
    rw [hempty] at hr
    cases hr
  · rw [bucketId_half hlog]
    exact h.ok.own j hj x hx
  · rw [bucketId_half hlog]
    exact (h.ok.root j hj r hr).2.2.1
  · rw [bucketId_half hlog] at hid
    obtain ⟨-, hne, -, hmutual⟩ := h.ok.root 1 hlt r hr
    rw [hid] at hne hmutual
    refine ⟨hne, eq_none_iff_forall_ne_some.2 (fun r' hr' => ?_)⟩
    have hback : bucketId hash t.capacityLog r' = 1 := by
      have := (h.ok.root 0 (by omega) r' hr').2.2.1
      omega
    exact hmutual (map_eq_some_iff.2 ⟨r', hr', hback⟩)
  · rw [total_wider strings rfl h.outside _ _ (by omega)]
    exact h.chained
  · rw [total_wider used rfl h.outside _ _ (by omega)]
    exact h.counted

lemma Inv.grow (h : Inv hash t) (hlog : t.capacityLog < 32) :
    ∃ t', t.grow hash = .ok t' ∧ Inv hash t' ∧ total strings t' = total strings t ∧ t'.size = t.size ∧
      t'.bucketCount = t.bucketCount * 2 := by
  have hpow : t.bucketCount * 2 = 2 ^ (t.capacityLog + 1) := by rw [h.count, Nat.pow_succ]
  obtain ⟨t', hrun, hre, hg⟩ := growLoop_spec (h.growing hlog) hlog hpow (Nat.le_mul_of_pos_right _ (by decide))
  have hn : t'.bucketCount = t.bucketCount * 2 := by rw [hre.fixed]
  have hc : t'.capacityLog = t.capacityLog + 1 := by rw [hre.fixed]
  have hcontent : total strings t' = total strings t :=
    hre.content.trans (total_wider strings rfl h.outside _ _ (by omega))
  refine ⟨t', hrun, ⟨by rw [hn, hc, hpow], by omega, ?_, fun k hk => ?_, hcontent ▸ h.nodup, hg.chained,
    hg.counted, ?_⟩,
    hcontent, by rw [hre.fixed], hn⟩
  · exact hg.ok.side (fun k hk => ⟨Nat.zero_le k, hk⟩) (fun k r hk hr => (hg.ok.root k ⟨Nat.zero_le k, hk⟩ r hr).1.2)
  · rw [hre.outside k (by rw [← hn]; exact hk)]
    exact h.outside k (by omega)
  · intro _
    have hroom := h.room hlog
    have hused := used_le t
    rw [hcontent]
    omega

end Grow

/-! ## Runs -/

section Runs
variable {S : Type} [DecidableEq S] {hash : S → UInt64} {s : Finset S} {t : StringSet S} {x : S}

lemma Inv.addLoop (h : Inv hash t) (hx : x ∉ total strings t) (hsize : t.size = .ofNat ((total strings t).card + 1)) :
    ∃ t', addLoop hash 2 t x = .ok t' ∧ Inv hash t' ∧ total strings t' = x ::ₘ total strings t ∧ t'.size = t.size := by
  have hchain : ∀ {s : StringSet S}, ¬s.findEmptyAround (bucketId hash s.capacityLog x) < 2 →
      (s.entries (bucketId hash s.capacityLog x)).chain ≠ [] := by
    intro s hoffs hnil
    unfold findEmptyAround at hoffs
    rw [if_pos hnil] at hoffs
    exact hoffs (by decide)
  -- the size is exact as long as the table can grow
  have hexact : t.capacityLog < 32 → t.size.toNat = (total strings t).card + 1 ∧
      (total strings t).card + 1 < t.bucketCount * 2 := by
    intro hlog
    have hroom := h.room hlog
    have hused := used_le t
    have hpow : 2 ^ t.capacityLog ≤ 2 ^ 31 := Nat.pow_le_pow_right (by decide) (by omega)
    rw [← h.count] at hpow
    rw [hsize, UInt32.toNat_ofNat', Nat.mod_eq_of_lt (by omega)]
    omega
  rw [StringSet.addLoop]
  by_cases hoffs : t.findEmptyAround (bucketId hash t.capacityLog x) < 2
  · rw [if_pos hoffs]
    exact ⟨_, rfl, h.setFlat hx hoffs⟩
  · rw [if_neg hoffs]
    by_cases hfull : t.size.toNat < t.bucketCount
    · rw [if_pos hfull]
      exact h.addToChain hx (hchain hoffs) (fun hlog => by have := hexact hlog; omega)
    · rw [if_neg hfull]
      have hlog : t.capacityLog < 32 := by
        by_contra hge
        have hall := t.size.toNat_lt
        have hcount := h.count
        rw [show t.capacityLog = 32 by have := h.log; omega] at hcount
        omega
      obtain ⟨t₁, hgrow, h₁, hsame, hsize₁, hn⟩ := h.grow hlog
      obtain ⟨hnat, hlt⟩ := hexact hlog
      rw [← hsame] at hx hlt ⊢
      rw [hgrow]
      dsimp only
      rw [StringSet.addLoop]
      by_cases hoffs₁ : t₁.findEmptyAround (bucketId hash t₁.capacityLog x) < 2
      · rw [if_pos hoffs₁]
        obtain ⟨hinv, hcontent, hsz⟩ := h₁.setFlat hx hoffs₁
        exact ⟨_, rfl, hinv, hcontent, hsz.trans hsize₁⟩
      · rw [if_neg hoffs₁, if_pos (by rw [hsize₁, hn, hnat, ← hsame]; exact hlt)]
        obtain ⟨t', hrun, hinv, hcontent, hsz⟩ := h₁.addToChain hx (hchain hoffs₁) (fun _ => by rw [hn]; exact hlt)
        exact ⟨t', hrun, hinv, hcontent, hsz.trans hsize₁⟩

structure Holds (hash : S → UInt64) (s : Finset S) (t : StringSet S) : Prop where
  inv : t = {} ∨ Inv hash t
  content : total strings t = s.val
  size : t.size = .ofNat s.card

lemma Holds.empty : Holds hash ∅ ({} : StringSet S) := ⟨Or.inl rfl, rfl, rfl⟩

lemma add_first (x : S) : ∃ t, add hash {} x = .ok (t, true) ∧ Holds hash {x} t := by
  set t₀ : StringSet S := { capacityLog := 2, bucketCount := 4 } with ht₀
  have h₀ : Inv hash t₀ :=
    ⟨rfl, Nat.le_of_ble_eq_true rfl, ⟨nofun, nofun⟩, fun _ _ => rfl, by simp [total, strings, ht₀],
      by simp [total, strings, ht₀], by simp [total, used, ht₀], fun _ => by simp [total, strings, used, ht₀]⟩
  have hnone : total strings t₀ = 0 := by simp [total, strings, ht₀]
  have hoffs : t₀.findEmptyAround (bucketId hash t₀.capacityLog x) = 0 := rfl
  obtain ⟨hinv, hcontent, -⟩ := h₀.setFlat (by rw [hnone]; exact Multiset.notMem_zero x) (by rw [hoffs]; decide)
  rw [hoffs, hnone] at hcontent
  rw [hoffs] at hinv
  exact ⟨{ t₀.setFlat (bucketId hash 2 x) 0 x with size := 1 }, rfl,
    Or.inr ⟨hinv.count, hinv.log, hinv.ok, hinv.outside,
    hinv.nodup, hinv.chained, hinv.counted, hinv.room⟩, hcontent, rfl⟩

lemma Holds.add (h : Holds hash s t) (x : S) :
    ∃ t', t.add hash x = .ok (t', decide (x ∉ s)) ∧ Holds hash (insert x s) t' := by
  rcases h.inv with rfl | hinv
  · have hs : s = ∅ := Finset.val_eq_zero.1 (h.content.symm.trans rfl)
    subst hs
    exact add_first x
  · have hpos : t.bucketCount ≠ 0 := by
      rw [hinv.count]
      positivity
    have hmem : x ∈ total strings t ↔ x ∈ s := by rw [h.content]; rfl
    unfold StringSet.add
    rw [if_neg hpos]
    by_cases hx : x ∈ s
    · rw [if_pos ((hinv.findAround_iff x).2 (hmem.2 hx)), Finset.insert_eq_of_mem hx]
      exact ⟨t, by simp [hx], h⟩
    · have hnot : x ∉ total strings t := fun hin => hx (hmem.1 hin)
      rw [if_neg (fun hin => hnot ((hinv.findAround_iff x).1 hin))]
      have hcard : (total strings t).card = s.card := by rw [h.content]; rfl
      have hinv' : Inv hash { t with size := t.size + 1 } := ⟨hinv.count, hinv.log, hinv.ok, hinv.outside, hinv.nodup,
        hinv.chained, hinv.counted, hinv.room⟩
      have hsize : t.size + 1 = .ofNat (s.card + 1) := by
        rw [h.size, UInt32.ofNat_add]
        rfl
      obtain ⟨t', hrun, hinv'', hcontent, hsz⟩ := hinv'.addLoop hnot (hsize.trans (by rw [← hcard]; rfl))
      refine ⟨t', by rw [hrun]; simp [hx], Or.inr hinv'', ?_, ?_⟩
      · rw [hcontent, Finset.insert_val_of_notMem hx, ← h.content]
        rfl
      · rw [hsz, Finset.card_insert_of_notMem hx]
        exact hsize

theorem Holds.addAll (h : Holds hash s t) (strs : List S) :
    ∃ t' bs, addAll hash t strs = .ok (t', bs) ∧ Holds hash (s ∪ strs.toFinset) t' ∧ bs.length = strs.length ∧
      ∀ k x, strs[k]? = some x → bs[k]? = some (decide (x ∉ s ∧ x ∉ strs.take k)) := by
  induction strs generalizing s t with
  | nil => exact ⟨t, [], rfl, by simpa using h, rfl, nofun⟩
  | cons y strs ih =>
    obtain ⟨t₁, hadd, h₁⟩ := h.add y
    obtain ⟨t', bs, hrun, h', hlen, hbs⟩ := ih h₁
    rw [StringSet.addAll, hadd]
    dsimp only
    rw [hrun]
    refine ⟨t', _, rfl, ?_, congrArg (· + 1) hlen, fun k x hk => ?_⟩
    · rwa [toFinset_cons, Finset.union_insert, ← Finset.insert_union]
    · cases k with
      | zero =>
        obtain rfl : y = x := by simpa using hk
        simp
      | succ k =>
        rw [getElem?_cons_succ] at hk ⊢
        rw [hbs k x hk]
        simp only [Finset.mem_insert, take_succ_cons, mem_cons, not_or, some.injEq, decide_eq_decide]
        tauto

/-- **Relinking terminates.** -/
theorem relinking_terminates (hash : S → UInt64) (strs : List S) : ∃ t bs, addAll hash {} strs = .ok (t, bs) := by
  obtain ⟨t, bs, hrun, -⟩ := (@Holds.empty S _ hash).addAll strs
  exact ⟨t, bs, hrun⟩

def Stored (hash : S → UInt64) (t : StringSet S) (x : S) : Prop :=
  ∃ k < t.bucketCount, k = bucketId hash t.capacityLog x ∧ x ∈ (t.entries k).chain ∨
    (k + 1 = bucketId hash t.capacityLog x ∨ k = bucketId hash t.capacityLog x + 1) ∧ (t.entries k).chain.head? = some x

lemma Holds.stored (h : Holds hash s t) (hx : x ∈ s) : Stored hash t x := by
  have hmem : x ∈ total strings t := by rw [h.content]; exact hx
  obtain ⟨k, hk, hin⟩ := mem_total.1 hmem
  rcases h.inv with rfl | hinv
  · cases hk
  rcases mem_chain_cases hin with hseat | hguest
  · exact ⟨k, hk, Or.inl ⟨(hinv.ok.own k hk x hseat).symm, hin⟩⟩
  · obtain ⟨-, -, hnear, -⟩ := hinv.ok.root k hk x hguest
    refine ⟨k, hk, Or.inr ⟨by omega, ?_⟩⟩
    unfold Bucket.guest at hguest
    split_ifs at hguest
    exact hguest

lemma Holds.counters (h : Holds hash s t) (hfew : s.card < 2 ^ 32) :
    t.size.toNat = s.card ∧ t.numUsedBuckets.toNat = total used t ∧ t.numChainEntries.toNat = total links t := by
  have hcard := card_total t
  rw [h.content, show s.val.card = s.card from rfl] at hcard
  have hnat : ∀ n < 2 ^ 32, (UInt32.ofNat n).toNat = n := fun n hn => by rw [UInt32.toNat_ofNat', Nat.mod_eq_of_lt hn]
  refine ⟨by rw [h.size, hnat _ hfew], ?_⟩
  rcases h.inv with rfl | hinv
  · exact ⟨rfl, rfl⟩
  · have hlinks : t.numChainEntries = .ofNat (total links t) := by
      have hsum := hinv.chained
      rw [hinv.counted, h.content, show s.val.card = s.card from rfl, hcard, Nat.add_comm, UInt32.ofNat_add] at hsum
      exact (UInt32.add_left_inj _).1 hsum
    exact ⟨by rw [hinv.counted, hnat _ (by omega)], by rw [hlinks, hnat _ (by omega)]⟩

/-- **`StringSet` is a set**, for every hash, as long as it holds fewer than 2^31 strings: the table then has at most
2^31 buckets, and the `uint32_t` `bid + 1` of the neighbour does not wrap. -/
theorem is_set (hash : S → UInt64) (strs : List S) (hfew : strs.toFinset.card < 2 ^ 31) :
    ∃ t bs, addAll hash {} strs = .ok (t, bs) ∧ bs.length = strs.length ∧
      (∀ k x, strs[k]? = some x → bs[k]? = some (decide (x ∉ strs.take k))) ∧
      t.size.toNat = strs.toFinset.card ∧
      (∀ x ∈ strs, (total strings t).count x = 1 ∧ Stored hash t x) ∧
      t.numUsedBuckets.toNat = total used t ∧ t.numChainEntries.toNat = total links t := by
  obtain ⟨t, bs, hrun, h, hlen, hbs⟩ := (@Holds.empty S _ hash).addAll strs
  rw [Finset.empty_union] at h
  obtain ⟨hsize, hcounters⟩ := h.counters (hfew.trans (by decide))
  refine ⟨t, bs, hrun, hlen, fun k x hk => by simpa using hbs k x hk, hsize, fun x hx => ?_, hcounters⟩
  have hx' : x ∈ strs.toFinset := mem_toFinset.2 hx
  exact ⟨by rw [h.content, Multiset.count_eq_one_of_mem strs.toFinset.nodup hx'], h.stored hx'⟩

theorem is_set_two : ([3, 5, 3] : List ℕ).toFinset.card < 2 ^ 31 ∧
    ∃ t bs, addAll (fun _ => 0) {} [3, 5, 3] = .ok (t, bs) ∧ bs[2]? = some false ∧ t.size.toNat = 2 := by
  have hfew : ([3, 5, 3] : List ℕ).toFinset.card < 2 ^ 31 := by decide
  obtain ⟨t, bs, hrun, -, hbs, hsize, -⟩ := is_set (fun _ => 0) [3, 5, 3] hfew
  exact ⟨hfew, t, bs, hrun, hbs 2 3 rfl, hsize⟩

/-- `size_` is 32 bits wide: after 2^32 strings it is 0. All of them have home bucket 0, where `bid + 1` never wraps. -/
theorem size_wraps : ∃ strs : List (List UInt8), strs.toFinset.card = 2 ^ 32 ∧
    ∃ t bs, addAll (fun _ => 0) {} strs = .ok (t, bs) ∧ t.size = 0 := by
  have hinj : Function.Injective (fun n => replicate n (0 : UInt8)) := fun a b hab => by
    simpa using congrArg length hab
  have hcard : ((range (2 ^ 32)).map (fun n => replicate n (0 : UInt8))).toFinset.card = 2 ^ 32 := by
    rw [toFinset_card_of_nodup (nodup_range.map hinj), length_map, length_range]
  obtain ⟨t, bs, hrun, h, -⟩ := (@Holds.empty (List UInt8) _ (fun _ => 0)).addAll
    ((range (2 ^ 32)).map (fun n => replicate n (0 : UInt8)))
  rw [Finset.empty_union] at h
  exact ⟨_, hcard, t, bs, hrun, by rw [h.size, hcard]; rfl⟩

end Runs

end StringSet

end MaxRedis.Kv
