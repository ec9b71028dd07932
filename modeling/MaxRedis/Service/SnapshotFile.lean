/-
The snapshot file of the single-node server (`snapshot.bin`): `SnapshotManager` writes and reads the entries of all
shards, `StateSerializer` takes them from the shards and puts them back.
-/
import MaxRedis.Kv.Snapshot

namespace MaxRedis.Service

variable {s bs rest : Str} {entries : List SnapshotRecord}

open Kv Bytes List

/-! ## Encoder and decoder -/

def encodeEntry (r : SnapshotRecord) : Str :=
  encodeLE 4 r.key.length ++ (r.key ++ (encodeLE 4 r.value.length ++ (r.value ++ encodeLE 8 r.expireAt.toNat)))

def encodeSnapshot (entries : List SnapshotRecord) : Str := encodeLE 4 entries.length ++ writeAll encodeEntry entries

def readUInt (width : ℕ) (bs : Str) : Option (ℕ × Str) :=
  if bs.length < width then none else some (decodeLE (bs.take width), bs.drop width)

def readString (bs : Str) : Option (Str × Str) :=
  match readUInt 4 bs with
  | none => none
  | some (len, bs) => if bs.length < len then none else some (bs.take len, bs.drop len)

def readEntry (bs : Str) : Option (SnapshotRecord × Str) := do
  let (key, bs) ← readString bs
  let (value, bs) ← readString bs
  let (expireMs, bs) ← readUInt 8 bs
  return (⟨key, value, .ofNat expireMs⟩, bs)

def readEntries : ℕ → Str → Option (List SnapshotRecord × Str)
  | 0, bs => some ([], bs)
  | count + 1, bs => do
    let (r, bs) ← readEntry bs
    let (entries, bs) ← readEntries count bs
    return (r :: entries, bs)

def decodeSnapshot (bs : Str) : Option (List SnapshotRecord) := do
  let (count, bs) ← readUInt 4 bs
  let (entries, bs) ← readEntries count bs
  if bs = [] then some entries else none

lemma readUInt_encode {width n : ℕ} (h : n < 256 ^ width) (rest : Str) :
    readUInt width (encodeLE width n ++ rest) = some (n, rest) := by
  unfold readUInt
  rw [if_neg (by simp), take_left' (length_encodeLE width n), drop_left' (length_encodeLE width n),
    decodeLE_encodeLE_of_lt h]

lemma readString_encode (h : s.length < 2 ^ 32) (rest : Str) :
    readString (encodeLE 4 s.length ++ (s ++ rest)) = some (s, rest) := by
  unfold readString
  rw [readUInt_encode h]
  dsimp only
  rw [if_neg (by simp), take_left, drop_left]

lemma readEntry_encode {r : SnapshotRecord} (h : r.Fits) (rest : Str) :
    readEntry (encodeEntry r ++ rest) = some (r, rest) := by
  have hexpire : readUInt 8 (encodeLE 8 r.expireAt.toNat ++ rest) = some (r.expireAt.toNat, rest) :=
    readUInt_encode r.expireAt.toNat_lt rest
  simp only [readEntry, encodeEntry, append_assoc, readString_encode h.1, readString_encode h.2, hexpire,
    Option.bind_eq_bind, Option.bind_some, UInt64.ofNat_toNat, Option.pure_def]

lemma readEntries_encode (h : ∀ r ∈ entries, r.Fits) (rest : Str) :
    readEntries entries.length (writeAll encodeEntry entries ++ rest) = some (entries, rest) := by
  induction entries with
  | nil => rfl
  | cons r _ ih =>
    rw [length_cons, readEntries, writeAll_cons, append_assoc, readEntry_encode (h r mem_cons_self)]
    simp only [Option.bind_eq_bind, Option.bind_some, ih (fun x hx => h x (mem_cons_of_mem r hx)), Option.pure_def]

theorem decodeSnapshot_encode (h : ∀ r ∈ entries, r.Fits)
    (hcount : entries.length < 2 ^ 32) : decodeSnapshot (encodeSnapshot entries) = some entries := by
  have hentries := readEntries_encode h []
  rw [append_nil] at hentries
  unfold decodeSnapshot encodeSnapshot
  rw [readUInt_encode hcount, Option.bind_eq_bind, Option.bind_some]
  dsimp only
  rw [hentries]
  rfl

/-! ## What the decoder accepts -/

lemma readUInt_inv {width n : ℕ} (h : readUInt width bs = some (n, rest)) :
    n < 256 ^ width ∧ bs = encodeLE width n ++ rest := by
  unfold readUInt at h
  split_ifs at h with hshort
  have hlen : (bs.take width).length = width := by
    rw [length_take]
    omega
  cases h
  constructor
  · have hlt := decodeLE_lt (bs.take width)
    rwa [hlen] at hlt
  · have hbytes := encodeLE_decodeLE (bs.take width)
    rw [hlen] at hbytes
    rw [hbytes, take_append_drop]

lemma readString_inv (h : readString bs = some (s, rest)) :
    s.length < 2 ^ 32 ∧ bs = encodeLE 4 s.length ++ (s ++ rest) := by
  unfold readString at h
  split at h
  · cases h
  · rename_i len behind hlen
    split_ifs at h with hshort
    cases h
    obtain ⟨hlt, rfl⟩ := readUInt_inv hlen
    rw [length_take, Nat.min_eq_left (by omega), take_append_drop]
    exact ⟨hlt, rfl⟩

lemma readEntry_inv {r : SnapshotRecord} (h : readEntry bs = some (r, rest)) :
    r.Fits ∧ bs = encodeEntry r ++ rest := by
  simp only [readEntry, Option.bind_eq_bind, Option.bind_eq_some_iff] at h
  obtain ⟨⟨key, b1⟩, hkey, ⟨value, b2⟩, hvalue, ⟨expire, b3⟩, hexpire, hr⟩ := h
  obtain ⟨hlt, rfl⟩ := readUInt_inv hexpire
  obtain ⟨hk, rfl⟩ := readString_inv hkey
  cases hr
  obtain ⟨hv, rfl⟩ := readString_inv hvalue
  refine ⟨⟨hk, hv⟩, ?_⟩
  simp only [encodeEntry, append_assoc]
  rw [UInt64.toNat_ofNat_of_lt' hlt]

lemma readEntries_inv {count : ℕ} (h : readEntries count bs = some (entries, rest)) :
    (∀ r ∈ entries, r.Fits) ∧ entries.length = count ∧ bs = writeAll encodeEntry entries ++ rest := by
  induction count generalizing bs entries with
  | zero =>
    cases h
    exact ⟨by simp, rfl, rfl⟩
  | succ _ ih =>
    simp only [readEntries, Option.bind_eq_bind, Option.bind_eq_some_iff] at h
    obtain ⟨⟨r, b1⟩, hr, ⟨later, b2⟩, hlater, heq⟩ := h
    cases heq
    obtain ⟨hfits, hlen, hb1⟩ := ih hlater
    obtain ⟨hfit, hbs⟩ := readEntry_inv hr
    dsimp only at hb1 hbs
    refine ⟨forall_mem_cons.2 ⟨hfit, hfits⟩, by rw [length_cons, hlen], ?_⟩
    rw [hbs, hb1, writeAll_cons, append_assoc]

lemma decodeSnapshot_inv (h : decodeSnapshot bs = some entries) :
    (∀ r ∈ entries, r.Fits) ∧ entries.length < 2 ^ 32 ∧ bs = encodeSnapshot entries := by
  simp only [decodeSnapshot, Option.bind_eq_bind, Option.bind_eq_some_iff] at h
  obtain ⟨⟨count, b1⟩, hnum, ⟨found, b2⟩, hfound, hend⟩ := h
  dsimp only at hfound hend
  split_ifs at hend with hempty
  cases hend
  obtain ⟨hlt, rfl⟩ := readUInt_inv hnum
  obtain ⟨hfits, hlen, rfl⟩ := readEntries_inv hfound
  refine ⟨hfits, hlen ▸ hlt, ?_⟩
  rw [encodeSnapshot, hlen, hempty, append_nil]

/-- **The snapshot format is a bijection**: what is accepted as some entries is their encoding, and nothing else. -/
theorem decodeSnapshot_iff (entries : List SnapshotRecord) (h : ∀ r ∈ entries, r.Fits)
    (hcount : entries.length < 2 ^ 32) (bs : Str) : decodeSnapshot bs = some entries ↔ bs = encodeSnapshot entries := by
  constructor
  · intro hread
    exact (decodeSnapshot_inv hread).2.2
  · rintro rfl
    exact decodeSnapshot_encode h hcount

/-- two entries, one with an empty value -/
theorem decodeSnapshot_iff_two :
    decodeSnapshot (encodeSnapshot [⟨[107], [], 0⟩, ⟨[108], [1, 2], 5⟩]) = some [⟨[107], [], 0⟩, ⟨[108], [1, 2], 5⟩] :=
  (decodeSnapshot_iff [⟨[107], [], 0⟩, ⟨[108], [1, 2], 5⟩] (by simp [SnapshotRecord.Fits]) (by decide) _).2 rfl

/-! ## A save that is cut off -/

/-- how far `Save` comes: the file cannot be opened, or so many bytes are written -/
inductive SaveEnd where
  | notOpened
  | wrote (bytes : ℕ)

/-- `SnapshotManager::Save`; what the file held before is lost when it is opened -/
def save (file : Option Str) (entries : List SnapshotRecord) : SaveEnd → Option Str × Bool
  | .notOpened => (file, false)
  | .wrote bytes => (some ((encodeSnapshot entries).take bytes), (encodeSnapshot entries).length ≤ bytes)

def load (file : Option Str) : Option (List SnapshotRecord) :=
  file.bind (fun bs => if bs.length = 0 then none else decodeSnapshot bs)

def Savable (entries : List SnapshotRecord) : Prop := (∀ r ∈ entries, r.Fits) ∧ entries.length < 2 ^ 32

lemma load_encode (h : Savable entries) :
    load (some (encodeSnapshot entries)) = some entries := by
  have hlen : (encodeSnapshot entries).length ≠ 0 := by simp [encodeSnapshot]
  show (if (encodeSnapshot entries).length = 0 then none else decodeSnapshot (encodeSnapshot entries)) = _
  rw [if_neg hlen, decodeSnapshot_encode h.1 h.2]

lemma decodeSnapshot_take (h : Savable entries) {bytes : ℕ}
    (hbytes : bytes < (encodeSnapshot entries).length) :
      decodeSnapshot ((encodeSnapshot entries).take bytes) = none := by
  cases hread : decodeSnapshot ((encodeSnapshot entries).take bytes) with
  | none => rfl
  | some found =>
    obtain ⟨hfits, hcount, htake⟩ := decodeSnapshot_inv hread
    set rest := (encodeSnapshot entries).drop bytes with hrest
    have hsplit : encodeSnapshot entries = encodeSnapshot found ++ rest := by
      rw [← htake, take_append_drop]
    have hnum : readUInt 4 (encodeLE 4 entries.length ++ writeAll encodeEntry entries) =
        some (entries.length, writeAll encodeEntry entries) := readUInt_encode h.2 _
    rw [show encodeLE 4 entries.length ++ writeAll encodeEntry entries = _ from hsplit, encodeSnapshot, append_assoc,
      readUInt_encode hcount, Option.some.injEq, Prod.mk.injEq] at hnum
    obtain ⟨hlen, hbody⟩ := hnum
    have htwice := readEntries_encode h.1 []
    rw [append_nil, ← hbody, ← hlen, readEntries_encode hfits, Option.some.injEq, Prod.mk.injEq] at htwice
    have := congrArg length htwice.2
    rw [length_drop, length_nil] at this
    omega

/-- **What can be loaded after a save**, however far it came: the entries of before if the file was not opened, the new
ones if all of them were written, and nothing otherwise. -/
theorem load_save {old entries : List SnapshotRecord} (hold : Savable old) (h : Savable entries) (e : SaveEnd) :
    load (save (some (encodeSnapshot old)) entries e).1 = match e with
      | .notOpened => some old
      | .wrote bytes => if (encodeSnapshot entries).length ≤ bytes then some entries else none := by
  cases e with
  | notOpened => exact load_encode hold
  | wrote bytes =>
    show load (some ((encodeSnapshot entries).take bytes)) = if (encodeSnapshot entries).length ≤ bytes then
        some entries else none
    split_ifs with hall
    · rw [take_of_length_le hall, load_encode h]
    · show (if _ then none else decodeSnapshot ((encodeSnapshot entries).take bytes)) = none
      rw [decodeSnapshot_take h (by omega), ite_self]

/-- **A save that fails keeps the snapshot**, if it has not opened the file; one that writes all of it replaces the
snapshot. -/
theorem save_keeps_snapshot (old entries : List SnapshotRecord) (hold : Savable old) (h : Savable entries) (e : SaveEnd)
    (he : e = .notOpened ∨ ∃ bytes, e = .wrote bytes ∧ (encodeSnapshot entries).length ≤ bytes) :
    load (save (some (encodeSnapshot old)) entries e).1 = some old ∨
      load (save (some (encodeSnapshot old)) entries e).1 = some entries := by
  rw [load_save hold h]
  rcases he with rfl | ⟨bytes, rfl, hall⟩
  · exact Or.inl rfl
  · exact Or.inr (if_pos hall)

theorem save_keeps_snapshot_full :
    load (save (some (encodeSnapshot [⟨[107], [1], 0⟩])) [⟨[107], [2], 5⟩] (.wrote 22)).1 = some [⟨[107], [1], 0⟩] ∨
      load (save (some (encodeSnapshot [⟨[107], [1], 0⟩])) [⟨[107], [2], 5⟩] (.wrote 22)).1 = some [⟨[107], [2], 5⟩] :=
  save_keeps_snapshot _ _ (by simp [Savable, SnapshotRecord.Fits]) (by simp [Savable, SnapshotRecord.Fits]) (.wrote 22)
    (Or.inr ⟨22, rfl, by decide⟩)

/-- A save that is cut off after it has opened the file leaves nothing that can be loaded. -/
theorem save_loses_snapshot : load (some (encodeSnapshot [⟨[107], [1], 0⟩])) = some [⟨[107], [1], 0⟩] ∧
    load (save (some (encodeSnapshot [⟨[107], [1], 0⟩])) [⟨[107], [2], 5⟩] (.wrote 0)).1 = none ∧
    load (save (some (encodeSnapshot [⟨[107], [1], 0⟩])) [⟨[107], [2], 5⟩] (.wrote 21)).1 = none := by
  decide

/-! ## Import -/

section Import
variable [Platform] {n m : ℕ} [NeZero n] [NeZero m]

def importEntry (now : UInt64) (r : SnapshotRecord) : ShardTask r.key Unit where
  run db := ((((db.addOrFind now r.key).1.assign r.key r.value).setExpire r.key r.expireAt).1, ())
  cell _ := (some ⟨r.value, r.expireAt⟩, ())
  acts db := by
    refine ⟨?_, rfl⟩
    rw [(DbSlice.lookup_setExpire _ _ _).1, DbSlice.lookup_assign, (db.lookup_addOrFind now r.key).1,
      Function.update_idem,
      Function.update_idem, Function.update_self]
    rfl

def importEntries (kv : KvStateMachine n) (clock : ℕ → UInt64) : List SnapshotRecord → KvStateMachine n
  | [] => kv
  | r :: entries => importEntries (kv.await (importEntry (clock 0) r)).1 (fun i => clock (i + 1)) entries

lemma lookup_importEntries_of_agree {st : Store} {entries : List SnapshotRecord}
    (h : ∀ r ∈ entries, st r.key = some ⟨r.value, r.expireAt⟩) (kv : KvStateMachine n) (clock : ℕ → UInt64) (k : Str) :
    (importEntries kv clock entries).lookup k = if ∃ r ∈ entries, r.key = k then st k else kv.lookup k := by
  induction entries generalizing kv clock with
  | nil => simp [importEntries]
  | cons r _ ih =>
    have hstep : (kv.await (importEntry (clock 0) r)).1.lookup k = if r.key = k then st k else kv.lookup k := by
      rw [(kv.lookup_await (importEntry (clock 0) r)).1]
      by_cases hk : r.key = k
      · subst hk
        rw [Function.update_self, if_pos rfl, h r mem_cons_self]
        rfl
      · rw [Function.update_of_ne (Ne.symm hk), if_neg hk]
    rw [importEntries, ih (fun x hx => h x (mem_cons_of_mem r hx)), hstep]
    by_cases hk : r.key = k
    · simp [hk]
    · simp [hk]

lemma lookup_importEntries (saved : KvStateMachine n) (clock : ℕ → UInt64) :
    (importEntries (KvStateMachine.empty : KvStateMachine m) clock saved.records).lookup = saved.lookup := by
  funext k
  rw [lookup_importEntries_of_agree (fun r hr => KvStateMachine.mem_records.1 hr)]
  split_ifs with h
  · rfl
  · cases hk : saved.lookup k with
    | none => rfl
    | some v => exact absurd ⟨⟨k, v.value, v.expireMs⟩, KvStateMachine.mem_records.2 hk, rfl⟩ h

end Import

end MaxRedis.Service
