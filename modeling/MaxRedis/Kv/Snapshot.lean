/-
Snapshots of the store: `SaveSnapshot` writes every entry of every shard to a file, and `LoadSnapshot` puts what it
reads there into a store that may hold something already.

The file gives lengths and the number of records in 32 bits.
-/
import MaxRedis.Core.Bytes
import MaxRedis.Kv.StateMachine

namespace MaxRedis.Kv

open Bytes List

/-! ## The file -/

structure SnapshotRecord where
  key : Str
  value : Str
  expireAt : UInt64
  deriving DecidableEq

namespace SnapshotRecord

/-- `SnapshotWriter::Add`: a length is cut to 32 bits, and the string with it -/
def write (r : SnapshotRecord) : Str :=
  encodeLE 4 r.key.length ++ (encodeLE 4 r.value.length ++ (encodeLE 8 r.expireAt.toNat ++
    (r.key.take (r.key.length % 2 ^ 32) ++ r.value.take (r.value.length % 2 ^ 32))))

/-- the reads of one turn of the loop of `LoadSnapshot`; it breaks if one of them is short -/
def read (bs : Str) : Option (SnapshotRecord × Str) :=
  if bs.length < 16 then none
  else
    let keyLen := decodeLE (bs.take 4)
    let valueLen := decodeLE ((bs.drop 4).take 4)
    let expireAt := UInt64.ofNat (decodeLE ((bs.drop 8).take 8))
    let data := bs.drop 16
    if data.length < keyLen + valueLen then none
    else some (⟨data.take keyLen, (data.drop keyLen).take valueLen, expireAt⟩, data.drop (keyLen + valueLen))

def Fits (r : SnapshotRecord) : Prop := r.key.length < 2 ^ 32 ∧ r.value.length < 2 ^ 32

lemma read_write {r : SnapshotRecord} (h : r.Fits) (rest : Str) : read (r.write ++ rest) = some (r, rest) := by
  obtain ⟨hk, hv⟩ := h
  have hkey : decodeLE (encodeLE 4 r.key.length) = r.key.length := decodeLE_encodeLE_of_lt hk
  have hval : decodeLE (encodeLE 4 r.value.length) = r.value.length := decodeLE_encodeLE_of_lt hv
  have hexp : decodeLE (encodeLE 8 r.expireAt.toNat) = r.expireAt.toNat := decodeLE_encodeLE_of_lt r.expireAt.toNat_lt
  have hbytes : r.write ++ rest = encodeLE 4 r.key.length ++ (encodeLE 4 r.value.length ++
      (encodeLE 8 r.expireAt.toNat ++ (r.key ++ (r.value ++ rest)))) := by
    simp only [write, Nat.mod_eq_of_lt hk, Nat.mod_eq_of_lt hv, take_length, append_assoc]
  rw [hbytes]
  set tail := r.key ++ (r.value ++ rest) with htail
  have h4 : ∀ (a : ℕ) (bs : Str), (encodeLE 4 a ++ bs).drop 4 = bs := fun a bs => drop_left' (length_encodeLE 4 a)
  have h8 : (encodeLE 8 r.expireAt.toNat ++ tail).drop 8 = tail := drop_left' (length_encodeLE 8 _)
  unfold read
  rw [if_neg (by simp only [length_append, length_encodeLE]; omega)]
  have hdrop8 : (encodeLE 4 r.key.length ++
      (encodeLE 4 r.value.length ++ (encodeLE 8 r.expireAt.toNat ++ tail))).drop 8 =
      encodeLE 8 r.expireAt.toNat ++ tail := by
    rw [show 8 = 4 + 4 from rfl, ← drop_drop, h4, h4]
  have hdrop16 : (encodeLE 4 r.key.length ++
      (encodeLE 4 r.value.length ++ (encodeLE 8 r.expireAt.toNat ++ tail))).drop 16 =
      tail := by
    rw [show 16 = 8 + 8 from rfl, ← drop_drop, hdrop8, h8]
  simp only [h4, hdrop8, hdrop16, take_left' (length_encodeLE 4 _), take_left' (length_encodeLE 8 _), hkey,
    hval, hexp,
    UInt64.ofNat_toNat]
  rw [if_neg (by simp [htail]), htail, take_left, drop_left, take_left, ← append_assoc,
    drop_left' (by simp)]

end SnapshotRecord

def kSnapshotMagic : ℕ := 0x50414E53

def DbSlice.records (db : DbSlice) : List SnapshotRecord :=
  db.mainTable.entries.map (fun e => ⟨e.1, e.2.value, e.2.expireMs⟩)

lemma DbSlice.mem_records {db : DbSlice} {r : SnapshotRecord} :
    r ∈ db.records ↔ db.lookup r.key = some ⟨r.value, r.expireAt⟩ := by
  rw [show db.lookup r.key = db.mainTable.lookup r.key from rfl, ← Option.mem_def, AList.mem_lookup_iff]
  unfold DbSlice.records
  rw [mem_map]
  constructor
  · rintro ⟨e, he, rfl⟩
    exact he
  · intro h
    exact ⟨_, h, rfl⟩

section Snapshots
variable [Platform] {n m : ℕ} [NeZero n] [NeZero m]

namespace KvStateMachine

def records (s : KvStateMachine n) : List SnapshotRecord := (List.finRange n).flatMap (fun i => (s.shards i).records)

def saveSnapshot (s : KvStateMachine n) : Str :=
  encodeLE 4 kSnapshotMagic ++ (encodeLE 4 s.records.length ++ writeAll SnapshotRecord.write s.records)

end KvStateMachine

/-- how far `LoadSnapshot` has come: `index` counts the records read, `loaded` those put into the store -/
structure Loading [Platform] (n : ℕ) [NeZero n] where
  store : KvStateMachine n
  index : ℕ := 0
  loaded : ℕ := 0

namespace Loading

def skips (now : UInt64) (r : SnapshotRecord) : Bool := 0 < r.expireAt ∧ r.expireAt < now

def push (now : UInt64) (clock : ℕ → UInt64) (t : Loading n) (r : SnapshotRecord) : Loading n :=
  if skips now r then { t with index := t.index + 1 }
  else ⟨(t.store.applySet (clock t.index) r.key r.value false false r.expireAt).1, t.index + 1, t.loaded + 1⟩

def step (now : UInt64) (clock : ℕ → UInt64) (t : Loading n) (bs : Str) : Option (Loading n × Str) :=
  (SnapshotRecord.read bs).map (fun p => (t.push now clock p.1, p.2))

end Loading

def KvStateMachine.loadSnapshot (s : KvStateMachine n) (now : UInt64) (clock : ℕ → UInt64) (file : Str) :
    KvStateMachine n × Bool :=
  if file.length < 8 ∨ decodeLE (file.take 4) ≠ kSnapshotMagic then (s, false)
  else
    let numRecords := decodeLE ((file.drop 4).take 4)
    let t := scan (Loading.step now clock) numRecords { store := s } (file.drop 8)
    (t.store, t.loaded = numRecords)

/-! ## What is saved -/

namespace KvStateMachine

lemma mem_records {s : KvStateMachine n} {r : SnapshotRecord} :
    r ∈ s.records ↔ s.lookup r.key = some ⟨r.value, r.expireAt⟩ := by
  simp only [records, mem_flatMap, mem_finRange, true_and, DbSlice.mem_records]
  constructor
  · rintro ⟨i, hi⟩
    have hown : shard n r.key = i := s.own i r.key (by rw [hi]; simp)
    rw [lookup, hown, hi]
  · intro h
    exact ⟨_, h⟩

lemma forall_lookup {s : KvStateMachine n} {P : Str → PrimeValue → Prop}
    (h : ∀ r ∈ s.records, P r.key ⟨r.value, r.expireAt⟩) (key : Str) (v : PrimeValue) (hv : s.lookup key = some v) :
    P key v :=
  h ⟨key, v.value, v.expireMs⟩ (mem_records.2 hv)

lemma records_nodup (s : KvStateMachine n) : (s.records.map SnapshotRecord.key).Nodup := by
  unfold records
  rw [map_flatMap, nodup_flatMap]
  constructor
  · intro i _
    have hkeys : (s.shards i).records.map SnapshotRecord.key = (s.shards i).mainTable.keys := by
      simp [DbSlice.records, AList.keys, keys]
    rw [hkeys]
    exact (s.shards i).mainTable.keys_nodup
  · refine (nodup_finRange n).imp_of_mem ?_
    intro i j _ _ hij k hi hj
    have hshard : ∀ l, k ∈ (s.shards l).records.map SnapshotRecord.key → shard n k = l := by
      intro l hl
      obtain ⟨r, hr, rfl⟩ := mem_map.1 hl
      exact s.own l r.key (by rw [DbSlice.mem_records.1 hr]; simp)
    exact hij ((hshard i hi).symm.trans (hshard j hj))

end KvStateMachine

/-! ## What is loaded -/

def SnapshotRecord.restored (r : SnapshotRecord) (now : UInt64) (old : Option PrimeValue) : PrimeValue :=
  ⟨r.value, if 0 < r.expireAt then r.expireAt else ((alive now old).getD {}).expireMs⟩

namespace Loading

variable {rs : List SnapshotRecord}

lemma push_of_not_skips {now : UInt64} {r : SnapshotRecord} (h : skips now r = false) (clock : ℕ → UInt64)
    (t : Loading n) : (t.push now clock r).store.lookup =
      Function.update t.store.lookup r.key (some (r.restored (clock t.index) (t.store.lookup r.key))) ∧
    (t.push now clock r).index = t.index + 1 ∧ (t.push now clock r).loaded = t.loaded + 1 := by
  unfold push
  rw [if_neg (by simp [h])]
  refine ⟨?_, rfl, rfl⟩
  have hl := (t.store.lookup_await (.set (clock t.index) r.key r.value false false r.expireAt)).1
  exact hl

lemma foldl_push {now : UInt64} (hskip : ∀ r ∈ rs, skips now r = false)
    (hnd : (rs.map SnapshotRecord.key).Nodup) (clock : ℕ → UInt64) (t : Loading n) :
    (rs.foldl (push now clock) t).loaded = t.loaded + rs.length ∧
    (∀ k ∉ rs.map SnapshotRecord.key, (rs.foldl (push now clock) t).store.lookup k = t.store.lookup k) ∧
    ∀ r ∈ rs, ∃ i < t.index + rs.length, (rs.foldl (push now clock) t).store.lookup r.key =
      some (r.restored (clock i) (t.store.lookup r.key)) := by
  induction rs generalizing t with
  | nil => exact ⟨rfl, fun _ _ => rfl, by simp⟩
  | cons r _ ih =>
    rw [map_cons, nodup_cons] at hnd
    obtain ⟨hstore, hindex, hloaded⟩ := push_of_not_skips (hskip r mem_cons_self) clock t
    obtain ⟨hcount, hother, hown⟩ := ih (fun x hx => hskip x (mem_cons_of_mem r hx)) hnd.2 (t.push now clock r)
    rw [foldl_cons]
    refine ⟨?_, ?_, ?_⟩
    · rw [length_cons]
      omega
    · intro k hk
      rw [map_cons, mem_cons, not_or] at hk
      rw [hother k hk.2, hstore, Function.update_of_ne hk.1]
    · intro x hx
      rcases mem_cons.1 hx with rfl | hx
      · -- the later records have other keys
        refine ⟨t.index, by simp, ?_⟩
        rw [hother x.key hnd.1, hstore, Function.update_self]
      · have hne : x.key ≠ r.key := by
          intro he
          exact hnd.1 (he ▸ mem_map_of_mem hx)
        obtain ⟨i, hi, hlook⟩ := hown x hx
        refine ⟨i, by rw [hindex] at hi; simp only [length_cons]; omega, ?_⟩
        rw [hlook, hstore, Function.update_of_ne hne]

lemma step_write {r : SnapshotRecord} (h : r.Fits) (now : UInt64) (clock : ℕ → UInt64) (t : Loading n) (rest : Str) :
    step now clock t (r.write ++ rest) = some (t.push now clock r, rest) := by
  unfold step
  rw [SnapshotRecord.read_write h]
  rfl

lemma accepts (h : ∀ r ∈ rs, r.Fits) (now : UInt64) (clock : ℕ → UInt64) (t : Loading n) :
    Accepts (step now clock) (push now clock) SnapshotRecord.write t rs := by
  induction rs generalizing t with
  | nil => trivial
  | cons r _ ih =>
    exact ⟨step_write (h r mem_cons_self) now clock t, ih (fun x hx => h x (mem_cons_of_mem r hx)) _⟩

end Loading

lemma KvStateMachine.loadSnapshot_saved {s : KvStateMachine m} (hfit : ∀ r ∈ s.records, r.Fits)
    (hcount : s.records.length < 2 ^ 32) (old : KvStateMachine n) (now : UInt64) (clock : ℕ → UInt64) :
    let t := s.records.foldl (Loading.push now clock) { store := old }
    old.loadSnapshot now clock s.saveSnapshot = (t.store, decide (t.loaded = s.records.length)) := by
  intro t
  set body := writeAll SnapshotRecord.write s.records with hbody
  have hmagic : decodeLE (encodeLE 4 kSnapshotMagic) = kSnapshotMagic := decodeLE_encodeLE_of_lt (by decide)
  have hlen : decodeLE (encodeLE 4 s.records.length) = s.records.length := decodeLE_encodeLE_of_lt hcount
  have hfile : s.saveSnapshot = encodeLE 4 kSnapshotMagic ++ (encodeLE 4 s.records.length ++ body) := rfl
  have hread : scan (Loading.step now clock) s.records.length { store := old } body = t := by
    have h := scan_accepts (Loading.accepts hfit now clock { store := old }) 0 []
    rwa [append_nil] at h
  have htake : s.saveSnapshot.take 4 = encodeLE 4 kSnapshotMagic := by
    rw [hfile, take_left' (length_encodeLE 4 _)]
  have hdrop : s.saveSnapshot.drop 4 = encodeLE 4 s.records.length ++ body := by
    rw [hfile, drop_left' (length_encodeLE 4 _)]
  have hnum : (s.saveSnapshot.drop 4).take 4 = encodeLE 4 s.records.length := by
    rw [hdrop, take_left' (length_encodeLE 4 _)]
  have hrest : s.saveSnapshot.drop 8 = body := by
    rw [show 8 = 4 + 4 from rfl, ← drop_drop, hdrop, drop_left' (length_encodeLE 4 _)]
  unfold KvStateMachine.loadSnapshot
  rw [htake, hnum, hrest, hlen]
  dsimp only
  rw [hread, if_neg]
  rw [hfile]
  simp only [length_append, length_encodeLE]
  omega

lemma KvStateMachine.get_snd (s : KvStateMachine n) (now : UInt64) (key : Str) :
    (s.get now key).2 = alive now (s.lookup key) :=
  (s.lookup_await (.get now key)).2

/-! ## The round trip -/

end Snapshots

def stored (now : UInt64) (commands : List Str) : KvStateMachine 1 :=
  commands.foldl (fun s c => (s.applyLogEntry now c).1) .empty

def twoKeys : KvStateMachine 1 :=
  stored 1000 [setText 'k' 'v' [], setText 'j' 'w' [ascii ['P', 'X'], ascii ['5', '0', '0', '0']]]

def otherKeys : KvStateMachine 1 := stored 1000 [setText 'j' 'x' [], setText 'i' 'y' [ascii ['P', 'X'], ascii ['9']]]

end MaxRedis.Kv
