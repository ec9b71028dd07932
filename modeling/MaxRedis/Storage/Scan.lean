/-
What `ScanSegment` and `Open` make of the bytes they find.

A segment file that `WalWriter` has written can be cut at any byte by a crash. The scan then stops inside a record, and
keeps the records before it (`torn_segment`).
-/
import MaxRedis.Storage.WalDisk

namespace MaxRedis.Storage

open Bytes WalEntry List Option

/-! ## A segment that is cut -/

section Cut
variable {E : Type} [WalEntry E]

lemma readRecord_torn {e : E} (h : Storable e) (last : ℕ) {m : ℕ} (hm : m < (record e).length) :
    readRecord (E := E) last ((record e).take m) = none := by
  rw [length_record] at hm
  unfold readRecord
  rcases Nat.lt_or_ge m headerSize with hlt | hge
  · rw [if_pos (by rw [length_take]; omega)]
  · have hlong : ¬((record e).take m).length < headerSize := by
      rw [length_take, length_record]; omega
    have hsplit : (record e).take m = (header e).bytes ++ (command e).take (m - headerSize) := by
      rw [record, take_append, take_of_length_le (by simpa using hge), RecordHeader.length_bytes]
    have hsize : (header e).size = (command e).length := Nat.mod_eq_of_lt h.size
    have hshort : ((command e).take (m - headerSize)).length ≠ (command e).length := by
      rw [length_take]; omega
    rw [if_neg hlong, hsplit, take_left' (by simp), drop_left' (by simp), h.header]
    dsimp only
    rw [hsize, take_of_length_le (by rw [length_take]; omega), if_pos hshort]
    split_ifs <;> rfl

lemma stops_records (id : ℕ) {es : List E} (hs : ∀ e ∈ es, Storable e) (t : SegmentLog E × ℕ) :
    Stops (SegmentLog.scanStep id) (scanPush id) record t es := by
  induction es generalizing t with
  | nil => trivial
  | cons e _ ih =>
    refine ⟨fun m hm => ?_, ih (fun x hx => hs x (mem_cons_of_mem _ hx)) _⟩
    unfold SegmentLog.scanStep
    rw [readRecord_torn (hs e mem_cons_self) _ hm]

inductive WriterCall (E : Type)
  | append (e : E)
  | flush
  | writeNoSync

def WriterCall.on (t : WalWriter × SegFile) : WriterCall E → WalWriter × SegFile
  | .append e => (t.1.append e, t.2)
  | .flush => t.1.flush t.2
  | .writeNoSync => t.1.writeNoSync t.2

def writeSegment (cs : List (WriterCall E)) : WalWriter × SegFile := cs.foldl WriterCall.on ({}, {})

def WriterCall.entry? : WriterCall E → Option E
  | .append e => some e
  | _ => none

def appended (cs : List (WriterCall E)) : List E := cs.filterMap WriterCall.entry?

lemma writeSegment_bytes (cs : List (WriterCall E)) :
    (writeSegment cs).2.bytes ++ (writeSegment cs).1.buf = writeAll record (appended cs) := by
  have hcall : ∀ (t : WalWriter × SegFile) (c : WriterCall E),
      (c.on t).2.bytes ++ (c.on t).1.buf = t.2.bytes ++ t.1.buf ++ writeAll record c.entry?.toList := by
    intro t c
    cases c with
    | append => simp [WriterCall.on, WriterCall.entry?, WalWriter.append]
    | flush =>
      simp only [WriterCall.on, WriterCall.entry?, WalWriter.flush, toList_none, writeAll_nil, append_nil]
      split_ifs with hb
      · rfl
      · simp
    | writeNoSync =>
      simp only [WriterCall.on, WriterCall.entry?, WalWriter.writeNoSync, toList_none, writeAll_nil,
        append_nil]
      split_ifs with hb
      · rfl
      · simp
  have hrun : ∀ (cs : List (WriterCall E)) (t : WalWriter × SegFile),
      (cs.foldl WriterCall.on t).2.bytes ++ (cs.foldl WriterCall.on t).1.buf =
        t.2.bytes ++ t.1.buf ++ writeAll record (appended cs) := by
    intro cs
    induction cs with
    | nil => intro t; simp [appended]
    | cons c cs ih =>
      intro t
      have hcons : appended (c :: cs) = c.entry?.toList ++ appended cs := by
        cases c <;> rfl
      rw [foldl_cons, ih, hcall, hcons, writeAll_append, append_assoc]
  simpa [writeSegment] using hrun cs ({}, {})

def emptyOver (id : ℕ) (bytes : List UInt8) : SegmentLog E := { dir := [(id, ⟨bytes, bytes.length⟩)] }

/-- **A torn file keeps exactly the whole records.** -/
theorem torn_segment (cs : List (WriterCall E)) (id n : ℕ) (hs : ∀ e ∈ appended cs, Storable e)
    (hpos : ∀ e ∈ appended cs, 1 ≤ index e) (hinc : (appended cs).Pairwise (fun a b => index a < index b)) (j : ℕ)
    (e : E) : ((emptyOver id ((writeSegment cs).2.bytes.take n)).scanSegment id).entries[j]? = some e ↔
      (appended cs)[j]? = some e ∧
        (writeAll record ((appended cs).take (j + 1))).length ≤ ((writeSegment cs).2.bytes.take n).length := by
  set bytes := (writeSegment cs).2.bytes.take n with hbytes
  -- the cut file is a part of all records
  have hcut : bytes = (writeAll record (appended cs)).take bytes.length := by
    have hpre : bytes <+: writeAll record (appended cs) := by
      rw [← writeSegment_bytes cs]
      exact ( take_prefix _ _).trans (prefix_append _ _)
    exact prefix_iff_eq_take.1 hpre
  have hfile : (emptyOver (E := E) id bytes).dir.file id = ⟨bytes, bytes.length⟩ := by
    simp [emptyOver, WalDir.file]
  have hread : Readable (emptyOver (E := E) id bytes).lastIndex (appended cs) := ⟨hs, hpos, hinc⟩
  have hfuel : ((writeAll record (appended cs)).take bytes.length).length < bytes.length + 1 := by
    rw [← hcut]; omega
  have hscan := scan_cut record_pos (fun t => by simp [SegmentLog.scanStep])
    (accepts_records (t := (emptyOver (E := E) id bytes, 0)) id hread) (stops_records id hs _) hfuel
  have hentries : ((emptyOver (E := E) id bytes).scanSegment id).entries = whole record bytes.length (appended cs) := by
    unfold SegmentLog.scanSegment
    rw [hfile]
    dsimp only
    rw [← hcut] at hscan
    rw [hscan]
    exact (foldl_scanPush id _ (emptyOver id bytes, 0)).entries
  rw [hentries, getElem?_whole]

/-- two records, cut in the second: the first is found -/
theorem torn_segment_second :
    ((emptyOver 0 ((writeSegment [.append (⟨1, 1, [65]⟩ : RawEntry), .writeNoSync, .append ⟨2, 5, [66, 67]⟩,
        .flush]).2.bytes.take 30)).scanSegment 0).entries[0]? = some (⟨1, 1, [65]⟩ : RawEntry) :=
  (torn_segment [.append (⟨1, 1, [65]⟩ : RawEntry), .writeNoSync, .append ⟨2, 5, [66, 67]⟩, .flush] 0 30 (by decide)
    (by decide) (by decide) 0 ⟨1, 1, [65]⟩).2 (by decide +kernel)

end Cut

/-! ## A segment with a changed byte -/

section Changed
variable {E : Type} [WalEntry E]

lemma readRecord_whole {e : E} (h : Framed e) (last : ℕ) (rest : List UInt8) :
    readRecord (E := E) last (record e ++ rest) = none ∨ readRecord last (record e ++ rest) = some (e, rest) := by
  rw [record_eq, append_assoc, append_assoc, readRecord_frame h last (by simp) rfl, ofRecord_self]
  split_ifs
  · exact Or.inl rfl
  · exact Or.inl rfl
  · exact Or.inl rfl
  · exact Or.inr rfl

lemma mem_scan_records (id : ℕ) {as : List E} (h : ∀ e ∈ as, Framed e) {tail : List UInt8}
    (htail : ∀ last, readRecord (E := E) last tail = none) (fuel : ℕ) (t : SegmentLog E × ℕ) :
    ∀ e ∈ (scan (SegmentLog.scanStep id) fuel t (writeAll record as ++ tail)).1.entries, e ∈ t.1.entries ∨ e ∈ as := by
  induction as generalizing fuel t with
  | nil =>
    intro e he
    cases fuel with
    | zero => exact Or.inl he
    | succ =>
      rw [writeAll_nil, nil_append, scan, SegmentLog.scanStep, htail] at he
      exact Or.inl he
  | cons a as ih =>
    intro e he
    cases fuel with
    | zero => exact Or.inl he
    | succ fuel =>
      rw [writeAll_cons, append_assoc, scan, SegmentLog.scanStep] at he
      rcases readRecord_whole (h a mem_cons_self) t.1.lastIndex (writeAll record as ++ tail) with hread | hread
      · rw [hread] at he
        exact Or.inl he
      · rw [hread] at he
        rcases ih (fun x hx => h x (mem_cons_of_mem a hx)) fuel _ e he with hold | hnew
        · rcases mem_append.1 hold with hold | hlast
          · exact Or.inl hold
          · rw [mem_singleton.1 hlast]
            exact Or.inr mem_cons_self
        · exact Or.inr (mem_cons_of_mem a hnew)

lemma ne_set_of_ne {α : Type} {s : List α} {k : ℕ} {b : α} (hk : k < s.length) (hb : s[k]? ≠ some b) :
    s ≠ s.set k b := by
  intro heq
  rw [heq, getElem?_set_self hk] at hb
  exact hb rfl

lemma readRecord_changed {e : E} (h : Framed e) (last : ℕ) {k : ℕ} {b : UInt8} (hk : 20 + k < (record e).length)
    (hb : (record e)[20 + k]? ≠ some b) (rest : List UInt8) :
    readRecord (E := E) last ((record e).set (20 + k) b ++ rest) = none := by
  set crc := computeCrc32 (command e) 0 with hcrc
  have hset : (record e).set (20 + k) b = headerFields e ++ (encodeLE 4 crc.toNat ++ command e).set k b := by
    rw [record_eq, set_append_right _ _ (by simp), length_headerFields, Nat.add_sub_cancel_left]
  have hget : (record e)[20 + k]? = (encodeLE 4 crc.toNat ++ command e)[k]? := by
    rw [record_eq, getElem?_append_right (by simp), length_headerFields, Nat.add_sub_cancel_left]
  rw [hget] at hb
  rw [length_record, headerSize] at hk
  rw [hset, append_assoc]
  rcases Nat.lt_or_ge k 4 with hin | hout
  · -- the checksum stored is another one
    rw [getElem?_append_left (by simpa using hin)] at hb
    rw [set_append_left _ _ (by simpa using hin), append_assoc,
      readRecord_frame h last (by simp) rfl]
    have hne : (computeCrc32 (command e) 0).toNat ≠ decodeLE ((encodeLE 4 crc.toNat).set k b) := by
      intro heq
      have hback := encodeLE_decodeLE ((encodeLE 4 crc.toNat).set k b)
      rw [← heq, length_set, length_encodeLE, ← hcrc] at hback
      exact ne_set_of_ne (by simpa using hin) hb hback
    rw [if_pos hne]
    split_ifs <;> rfl
  · -- the checksum computed is another one
    have hplace : k - 4 < (command e).length := by omega
    rw [getElem?_append_right (by simpa using hout), length_encodeLE] at hb
    rw [set_append_right _ _ (by simpa using hout), length_encodeLE, append_assoc,
      readRecord_frame h last (by simp) (by simp)]
    have hne : (computeCrc32 ((command e).set (k - 4) b) 0).toNat ≠ decodeLE (encodeLE 4 crc.toNat) := by
      rw [decodeLE_encodeLE_of_lt (by simpa using UInt32.toNat_lt crc), ne_eq, UInt32.toNat_inj, hcrc]
      intro heq
      set before := (command e).take (k - 4)
      set behind := (command e).drop (k - 4 + 1)
      have hnew : (command e).set (k - 4) b = before ++ ([b] ++ behind) := by
        rw [set_eq_take_append_cons_drop, if_pos hplace]
        rfl
      have hold : command e = before ++ ([(command e)[k - 4]] ++ behind) := by
        rw [singleton_append, ← drop_eq_getElem_cons hplace, take_append_drop]
      have hburst : computeCrc32 (before ++ ([b] ++ behind)) 0 =
          computeCrc32 (before ++ ([(command e)[k - 4]] ++ behind)) 0 := by
        rw [← hnew, ← hold, heq]
      have hbyte : [b] = [(command e)[k - 4]] := computeCrc32_burst rfl (by simp) hburst
      rw [getElem?_eq_getElem hplace, head_eq_of_cons_eq hbyte] at hb
      exact hb rfl
    rw [if_pos hne]
    split_ifs <;> rfl

def Checked (es : List E) (p : ℕ) : Prop :=
  ∃ as e bs, es = as ++ e :: bs ∧ (writeAll record as).length + 20 ≤ p ∧ p < (writeAll record (as ++ [e])).length

end Changed

namespace SegmentLog

variable {l : SegmentLog RawEntry}

structure Scanned (l : SegmentLog RawEntry) : Prop where
  base : l.baseIndex = 0
  last : l.lastIndex = (l.entries.getLast?.map RawEntry.index).getD 0
  positive : ∀ e ∈ l.entries, 0 < e.index
  room : ∀ e ∈ l.entries.head?, e.index + l.entries.length ≤ l.lastIndex + 1

lemma readRecord_above {last : ℕ} {bs rest : List UInt8} {e : RawEntry} (h : readRecord last bs = some (e, rest)) :
    last < e.index := by
  unfold readRecord at h
  dsimp only at h
  split_ifs at h with h1 h2 h3 h4 h5
  obtain ⟨rfl, -⟩ := Prod.mk.injEq .. ▸ some.inj h
  exact Nat.lt_of_not_le h3

lemma scanSegment_scanned (h : Scanned l) (id : ℕ) : Scanned (l.scanSegment id) := by
  have hstep : ∀ (t t' : SegmentLog RawEntry × ℕ) (bs rest : List UInt8), scanStep id t bs = some (t', rest) →
      Scanned t.1 → Scanned t'.1 := by
    intro t t' bs rest hs ht
    unfold scanStep at hs
    split at hs
    · simp at hs
    · rename_i e rest' hr
      cases hs
      have habove := readRecord_above hr
      refine ⟨ht.base, by simp [addLocation, push, WalEntry.index], fun x hx => ?_, fun x hx => ?_⟩
      · rcases List.mem_append.1 hx with hx | hx
        · exact ht.positive x hx
        · rw [mem_singleton.1 hx]; omega
      · -- every record has a larger index than the one before
        show x.index + (t.1.entries ++ [e]).length ≤ e.index + 1
        have hx : x ∈ (t.1.entries ++ [e]).head? := hx
        cases hes : t.1.entries with
        | nil => rw [hes] at hx; cases hx; exact le_rfl
        | cons y ys =>
          have hroom := ht.room x (by rw [hes] at hx ⊢; exact hx)
          rw [hes] at hroom
          simp only [length_cons, length_append, length_nil] at hroom ⊢
          omega
  exact scan_invariant (P := fun t => Scanned t.1) hstep (t := (l, 0)) h _ _

structure Placed (l : SegmentLog RawEntry) : Prop where
  at_place : ∀ j e, l.entries[j]? = some e → e.index = l.baseIndex + j + 1
  last : l.lastIndex = l.baseIndex + l.entries.length

lemma index_of_chain {e : RawEntry} {es : List RawEntry}
    (h : (e :: es).IsChain (fun a b => b.index = a.index + 1)) {j : ℕ} {x : RawEntry} (hx : (e :: es)[j]? = some x) :
    x.index = e.index + j := by
  induction j generalizing e es with
  | zero => simp only [getElem?_cons_zero, some.injEq] at hx; rw [hx]; rfl
  | succ _ ih =>
    rw [getElem?_cons_succ] at hx
    cases es with
    | nil => simp at hx
    | cons =>
      obtain ⟨hb, hrest⟩ := isChain_cons_cons.1 h
      rw [ih hrest hx, hb]
      omega

lemma adjustBase_cons (h : Scanned l) {e : RawEntry} {es : List RawEntry} (he : l.entries = e :: es) :
    l.adjustBase = { l with baseIndex := e.index - 1 } := by
  have hbase := h.base
  have hpos := h.positive e (by rw [he]; exact mem_cons_self)
  unfold adjustBase
  rw [he]
  dsimp only
  split_ifs with h1
  · rfl
  · have hzero : e.index - 1 = l.baseIndex := by
      have h1' : ¬ (l.baseIndex = 0 ∧ 1 < e.index) := h1
      omega
    rw [hzero, ← he]

lemma adjustBase_placed (h : Scanned l)
    (hc : l.entries.IsChain (fun a b => b.index = a.index + 1)) : Placed l.adjustBase := by
  have hbase := h.base
  have hlast := h.last
  cases he : l.entries with
  | nil =>
    have heq : l.adjustBase = l := by unfold adjustBase; rw [he]
    rw [he] at hlast
    rw [heq]
    exact ⟨fun j e hj => by simp [he] at hj, by simpa [he, hbase] using hlast⟩
  | cons e es =>
    have hpos := h.positive e (by rw [he]; exact mem_cons_self)
    have heq := adjustBase_cons h he
    rw [he] at hc hlast
    have hplace := fun j x (hx : (e :: es)[j]? = some x) => index_of_chain hc hx
    have hend : l.lastIndex = e.index + es.length := by
      have hget : (e :: es).getLast? = some ((e :: es).getLast (by simp)) := getLast?_eq_some_getLast _
      have hat : (e :: es)[es.length]? = some ((e :: es).getLast (by simp)) := by
        rw [← hget, getLast?_eq_getElem?]
        simp
      rw [hlast, hget, map_some, getD_some, hplace _ _ hat]
    rw [heq]
    refine ⟨fun j x hx => ?_, ?_⟩
    · have hx' : (e :: es)[j]? = some x := by rw [← he]; exact hx
      have := hplace j x hx'
      show x.index = e.index - 1 + j + 1
      omega
    · show l.lastIndex = e.index - 1 + l.entries.length
      rw [he, length_cons]
      omega

lemma openDir_scanned (d : WalDir) : ∃ x : SegmentLog RawEntry, Scanned x ∧
    (openDir d : SegmentLog RawEntry).entries = x.adjustBase.entries ∧
    (openDir d : SegmentLog RawEntry).baseIndex = x.adjustBase.baseIndex ∧
    (openDir d : SegmentLog RawEntry).lastIndex = x.adjustBase.lastIndex := by
  have hscan : ∀ (ids : List ℕ) (l : SegmentLog RawEntry), Scanned l → Scanned (ids.foldl scanSegment l) := by
    intro ids
    induction ids with
    | nil => intro l h; exact h
    | cons id _ ih => intro l h; exact ih _ (scanSegment_scanned h id)
  refine ⟨_, hscan d.discoverSegments { dir := d } ⟨rfl, rfl, by simp, by simp⟩, ?_⟩
  -- the writer is opened behind what was found
  unfold openDir
  split <;> exact ⟨rfl, rfl, rfl⟩

/-- a range read of one entry finds whatever is at the place, as long as the log is not shorter than its last index -/
lemma getRange_place (d : WalDir) {j : ℕ} {e : RawEntry} (he : (openDir d : SegmentLog RawEntry).entries[j]? = some e) :
    (openDir d : SegmentLog RawEntry).getRange ((openDir d : SegmentLog RawEntry).baseIndex + j + 1) 1 = [e] := by
  obtain ⟨x, hx, hentries, hbase, hlast⟩ := openDir_scanned d
  set l : SegmentLog RawEntry := openDir d
  obtain ⟨hlt, hget⟩ := List.getElem?_eq_some_iff.1 he
  have hfits : l.baseIndex + l.entries.length ≤ l.lastIndex := by
    cases hxe : x.entries with
    | nil =>
      obtain ⟨b, hb⟩ := adjustBase_eq x
      rw [hentries, hb, hxe] at hlt
      cases hlt
    | cons f es =>
      have hroom := hx.room f (by rw [hxe]; rfl)
      have hpos := hx.positive f (by rw [hxe]; exact mem_cons_self)
      rw [hentries, hbase, hlast, adjustBase_cons hx hxe]
      show f.index - 1 + x.entries.length ≤ x.lastIndex
      omega
  have hfirst : l.firstIndex = l.baseIndex + 1 := by
    unfold firstIndex
    rw [if_neg (ne_nil_of_length_pos (by omega)), if_pos (by omega)]
  unfold getRange
  rw [hfirst, if_neg (by omega), if_neg (by decide),
    show l.baseIndex + j + 1 - l.baseIndex - 1 = j by omega, drop_eq_getElem_cons hlt, hget]
  rfl

lemma chain_of_places (l : SegmentLog RawEntry) (h : ∀ j e, l.entries[j]? = some e → e.index = l.baseIndex + j + 1) :
    l.entries.IsChain (fun a b => b.index = a.index + 1) := by
  refine isChain_iff_getElem.2 (fun j hj => ?_)
  rw [h j _ (getElem?_eq_getElem (by omega)), h (j + 1) _ (getElem?_eq_getElem (by omega))]
  omega

lemma openDir_placed (d : WalDir)
    (hc : (openDir d : SegmentLog RawEntry).entries.IsChain (fun a b => b.index = a.index + 1)) :
    Placed (openDir d) := by
  obtain ⟨x, hs, hopen⟩ := openDir_scanned d
  obtain ⟨b, hb⟩ := adjustBase_eq x
  rw [hopen.1, hb] at hc
  have hp := adjustBase_placed hs hc
  refine ⟨fun j e he => ?_, ?_⟩
  · rw [hopen.1] at he
    rw [hopen.2.1]
    exact hp.at_place j e he
  · rw [hopen.1, hopen.2.1, hopen.2.2]
    exact hp.last

namespace Placed

variable {l : SegmentLog RawEntry} {e : RawEntry}

lemma get_at (h : Placed l) {j : ℕ} (he : l.entries[j]? = some e) : l.get e.index = some e := by
  have hidx := h.at_place j e he
  have hlt : j < l.entries.length := (List.getElem?_eq_some_iff.1 he).1
  have hlast := h.last
  unfold get
  rw [if_neg (by omega), if_neg (by omega), show e.index - l.baseIndex - 1 = j by omega, he]
  exact if_pos rfl

lemma of_get (h : Placed l) {i : ℕ} (hi : 0 < i) (he : l.get i = some e) :
    l.baseIndex < i ∧ l.entries[i - l.baseIndex - 1]? = some e := by
  have hmem : e ∈ l.entries ∧ e.index = i := by
    have hfind : l.entries.find? (fun e => WalEntry.index e = i) = some e → e ∈ l.entries ∧ e.index = i :=
      fun hf => ⟨mem_of_find?_eq_some hf, of_decide_eq_true (p := e.index = i) (find?_some hf :)⟩
    unfold get at he
    split_ifs at he with h1 h2
    · have hblank : ¬ WalEntry.index (WalEntry.blank : RawEntry) = i := by
        rw [WalEntry.index_blank]; omega
      dsimp only at he
      rw [if_neg hblank] at he
      exact hfind he
    · split at he
      · rename_i x hx
        split_ifs at he with h3
        · cases he
          exact ⟨mem_of_getElem? hx, h3⟩
        · exact hfind he
      · exact hfind he
  obtain ⟨j, hj⟩ := mem_iff_getElem?.1 hmem.1
  have hidx := h.at_place j e hj
  rw [hmem.2] at hidx
  exact ⟨by omega, by rw [show i - l.baseIndex - 1 = j by omega]; exact hj⟩

lemma getRange_eq (h : Placed l) {i k : ℕ} (hk : 0 < k) :
    l.getRange i k = if i ≤ l.baseIndex then [] else (l.entries.drop (i - l.baseIndex - 1)).take k := by
  have hlast := h.last
  unfold getRange firstIndex
  by_cases hne : l.entries = []
  · rw [hne] at hlast ⊢
    by_cases hle : i ≤ l.baseIndex <;> simp [hle]
  · have hpos := length_pos_iff.2 hne
    have hfirst : l.baseIndex + 1 ≤ l.lastIndex := by omega
    rw [if_neg hne, if_pos hfirst]
    by_cases hle : i ≤ l.baseIndex
    · rw [if_pos (Or.inl (by omega)), if_pos hle]
    · rw [if_neg hle]
      by_cases hgt : l.lastIndex < i
      · rw [if_pos (Or.inr hgt), drop_eq_nil_of_le (by omega), take_nil]
      · rw [if_neg (by omega), if_neg (by omega)]

end Placed

end SegmentLog

/-- **Point and range reads agree** on a directory exactly if the indexes that `Open` finds are consecutive. Limits are
those up to 2^63, for which `physical + limit` does not wrap. -/
theorem reads_agree (d : WalDir) :
    let l : SegmentLog RawEntry := SegmentLog.openDir d
    (∀ i k, 1 ≤ i → 1 ≤ k → k ≤ UInt64.size / 2 →
      (∀ e ∈ l.getRange i k, l.get e.index = some e ∧ i ≤ e.index ∧ e.index ≤ i + k - 1) ∧
      ∀ e, l.get i = some e → (l.getRange i k).head? = some e) ↔
    l.entries.IsChain (fun a b => b.index = a.index + 1) := by
  intro l
  refine ⟨fun h => ?_, fun hc i k hi hk _ => ?_⟩
  · refine SegmentLog.chain_of_places l (fun j e he => ?_)
    have hread := SegmentLog.getRange_place d he
    obtain ⟨-, hlow, hhigh⟩ := (h (l.baseIndex + j + 1) 1 (by omega) le_rfl (by decide)).1 e (by rw [hread]; simp)
    omega
  have hp : SegmentLog.Placed l := SegmentLog.openDir_placed d hc
  rw [hp.getRange_eq hk]
  constructor
  · intro e he
    split_ifs at he with hle
    · simp at he
    · obtain ⟨j, hj⟩ := mem_iff_getElem?.1 he
      rw [getElem?_take] at hj
      split_ifs at hj with hjk
      rw [getElem?_drop] at hj
      have hidx := hp.at_place _ e hj
      exact ⟨hp.get_at hj, by omega, by omega⟩
  · intro e he
    obtain ⟨hlt, hat⟩ := hp.of_get hi he
    rw [if_neg (by omega), head?_take, if_neg (by omega), head?_drop, hat]

/-- a directory whose first segment has been deleted -/
theorem reads_agree_compacted :
    ((SegmentLog.openDir [(1, ⟨record (⟨1, 3, [65]⟩ : RawEntry) ++ record (⟨1, 4, [66]⟩ : RawEntry), 0⟩)] :
        SegmentLog RawEntry).getRange 4 2).head? = some ⟨1, 4, [66]⟩ :=
  ((reads_agree [(1, ⟨record (⟨1, 3, [65]⟩ : RawEntry) ++ record (⟨1, 4, [66]⟩ : RawEntry), 0⟩)]).2 (by decide +kernel)
    4 2 (by decide) (by decide) (by decide)).2 _ (by decide +kernel)

/-- **A gap misplaces the entries behind it.** -/
theorem gap_misplaces : let l : SegmentLog RawEntry :=
      SegmentLog.openDir [(0, ⟨record (⟨1, 1, [65]⟩ : RawEntry) ++ record (⟨1, 3, [66]⟩ : RawEntry), 0⟩)]
    l.getRange 2 1 = [⟨1, 3, [66]⟩] ∧ l.get 3 = some ⟨1, 3, [66]⟩ ∧ l.getRange 3 1 = [] := by
  decide +kernel

/-! ## A snapshot over what was found -/

namespace SegmentLog

lemma drop_covered {es : List RawEntry} {b : ℕ} (h : ∀ j e, es[j]? = some e → e.index = b + j + 1) (i : ℕ) :
    es.dropWhile (fun e => e.index ≤ i) = es.drop (i - b) ∧ es.filter (fun e => i < e.index) = es.drop (i - b) := by
  induction es generalizing b with
  | nil => simp
  | cons e es ih =>
    have he := h 0 e rfl
    obtain ⟨hdrop, hfilter⟩ := @ih (b + 1) (fun j x hx => by rw [h (j + 1) x hx]; omega)
    by_cases hle : e.index ≤ i
    · have hnext : i - b = i - (b + 1) + 1 := by omega
      rw [dropWhile_cons, if_pos (decide_eq_true hle), filter_cons, if_neg (by simpa using hle), hnext,
        drop_succ_cons]
      exact ⟨hdrop, hfilter⟩
    · have hall : i - (b + 1) = 0 := by omega
      have hnone : i - b = 0 := by omega
      rw [hall] at hfilter
      rw [dropWhile_cons, if_neg (by simpa using hle), filter_cons, if_pos (by simpa using hle), hfilter, hnone]
      exact ⟨rfl, rfl⟩

namespace Placed

variable {l : SegmentLog RawEntry}

lemma prune (h : Placed l) {i : ℕ} (hi : 0 < i) (hle : i ≤ l.lastIndex) (t : ℕ) :
    (l.setSnapshotAnchor i t).pruneCompacted =
      { l with anchor := ⟨i, t⟩, baseIndex := max i l.baseIndex, entries := l.entries.drop (i - l.baseIndex) } := by
  have hlast := h.last
  have hdrop : l.entries.dropWhile (fun e => decide (WalEntry.index e ≤ i)) = l.entries.drop (i - l.baseIndex) :=
    (drop_covered h.at_place i).1
  have heq : ∀ {b : ℕ} {es : List RawEntry}, b = max i l.baseIndex → es = l.entries.drop (i - l.baseIndex) →
      ({ l with anchor := ⟨i, t⟩, baseIndex := b, entries := es } : SegmentLog RawEntry) =
        { l with anchor := ⟨i, t⟩, baseIndex := max i l.baseIndex, entries := l.entries.drop (i - l.baseIndex) } := by
    rintro b es rfl rfl
    rfl
  unfold pruneCompacted setSnapshotAnchor
  dsimp only
  rw [if_neg (by omega)]
  split
  · rename_i hes
    rw [hes] at hlast
    exact heq (max_eq_right (by simpa [hlast] using hle)).symm (by rw [hes, drop_nil])
  · -- everything is covered
    rename_i e es hes hnil
    rw [hdrop] at hnil
    have hlong := drop_eq_nil_iff.1 hnil
    have hpos : 0 < l.entries.length := by rw [hes]; exact Nat.succ_pos _
    exact heq (max_eq_left (by omega)).symm hnil.symm
  · rename_i e _ _ _ hes hrest
    rw [hdrop] at hrest
    have hfirst : WalEntry.index e = l.baseIndex + 1 := h.at_place 0 e (by rw [hes]; rfl)
    split_ifs with hcovered
    · exact heq (max_eq_left (by omega)).symm hrest.symm
    · exact heq (max_eq_right (by omega)).symm (by rw [show i - l.baseIndex = 0 by omega]; rfl)

lemma pruned (h : Placed l) {i : ℕ} (hi : 0 < i) (hle : i ≤ l.lastIndex) (t : ℕ) :
    Placed (l.setSnapshotAnchor i t).pruneCompacted := by
  have hlast := h.last
  rw [h.prune hi hle t]
  constructor
  · intro j e he
    have hplace := h.at_place _ e (getElem?_drop ▸ he)
    show e.index = max i l.baseIndex + j + 1
    omega
  · show l.lastIndex = max i l.baseIndex + (l.entries.drop (i - l.baseIndex)).length
    rw [length_drop]
    omega

lemma push {l' : SegmentLog RawEntry} {e : RawEntry} (h : Placed l) (hp : Pushed l l' e)
    (he : e.index = l.lastIndex + 1) : Placed l' := by
  have hlast := h.last
  have hnew : l'.lastIndex = e.index := hp.last
  constructor
  · intro j x hx
    rw [hp.entries] at hx
    rw [hp.base]
    rcases Nat.lt_or_ge j l.entries.length with hj | hj
    · rw [getElem?_append_left hj] at hx
      exact h.at_place j x hx
    · rw [getElem?_append_right hj, getElem?_singleton] at hx
      split_ifs at hx with hzero
      cases hx
      omega
  · rw [hnew, hp.base, hp.entries, length_append, length_singleton]
    omega

end Placed

lemma openDir_writer (d : WalDir) :
    (openDir d : SegmentLog RawEntry).lastIndex = 0 ∨ (openDir d : SegmentLog RawEntry).writer.isSome := by
  unfold openDir
  cases hlast : d.discoverSegments.getLast? with
  | some id => exact Or.inr rfl
  | none =>
    rw [getLast?_eq_none_iff.1 hlast]
    exact Or.inl rfl

end SegmentLog

lemma SegmentLog.pruneCompacted_last (l : SegmentLog RawEntry) : l.pruneCompacted.lastIndex = l.lastIndex := by
  unfold pruneCompacted
  split_ifs
  · rfl
  · split
    · rfl
    · rfl
    · split_ifs <;> rfl

/-- **Pruning leaves a consistent log** exactly if the recovered log reaches the snapshot: the last index stays, the
entries above the snapshot are kept, each at its index, and so is what is appended next. -/
theorem prune_consistent (d : WalDir)
    (hc : (SegmentLog.openDir d : SegmentLog RawEntry).entries.IsChain (fun a b => b.index = a.index + 1)) {i : ℕ}
    (hi : 0 < i) (t : ℕ) :
    let found : SegmentLog RawEntry := .openDir d
    let l := (found.setSnapshotAnchor i t).pruneCompacted
    (l.lastIndex = max i found.lastIndex ∧ l.entries = found.entries.filter (fun e => i < e.index) ∧
      (∀ e ∈ l.entries, l.get e.index = some e) ∧
      ∀ e flush, (l.append e flush).lastIndex = l.lastIndex + 1 ∧
        (l.append e flush).get (l.lastIndex + 1) = some { e with index := l.lastIndex + 1 }) ↔ i ≤ found.lastIndex := by
  intro found l
  have hkeeps : l.lastIndex = found.lastIndex := SegmentLog.pruneCompacted_last (found.setSnapshotAnchor i t)
  refine ⟨fun h => by rw [← hkeeps, h.1]; exact le_max_left _ _, fun hle => ?_⟩
  have hp : SegmentLog.Placed found := SegmentLog.openDir_placed d hc
  have hpruned : SegmentLog.Placed l := hp.pruned hi hle t
  have hl := hp.prune hi hle t
  have hlast : l.lastIndex = found.lastIndex := by rw [show l = _ from hl]
  refine ⟨by rw [hlast, max_eq_right hle], ?_, fun e he => ?_, fun e flush => ?_⟩
  · rw [(SegmentLog.drop_covered hp.at_place i).2, show l = _ from hl]
  · obtain ⟨j, hj⟩ := mem_iff_getElem?.1 he
    exact hpruned.get_at hj
  · have hwriter : l.lastIndex = 0 ∨ l.writer.isSome := by
      rw [show l = _ from hl]
      exact SegmentLog.openDir_writer d
    have happ := SegmentLog.append_pushed l e flush (fun _ => hwriter)
    have hnext := hpruned.push happ rfl
    have hat : (l.append e flush).entries[l.entries.length]? = some { e with index := l.lastIndex + 1 } := by
      rw [happ.entries, getElem?_append_right le_rfl, Nat.sub_self]
      rfl
    exact ⟨happ.last, hnext.get_at hat⟩

/-- a snapshot in the middle of the log -/
theorem prune_consistent_middle : let d : WalDir :=
      [(0, ⟨record (⟨1, 1, [65]⟩ : RawEntry) ++ record (⟨1, 2, [66]⟩ : RawEntry), 0⟩)]
    (((SegmentLog.openDir d).setSnapshotAnchor 1 1).pruneCompacted : SegmentLog RawEntry).entries = [⟨1, 2, [66]⟩] :=
  ((prune_consistent [(0, ⟨record (⟨1, 1, [65]⟩ : RawEntry) ++ record (⟨1, 2, [66]⟩ : RawEntry), 0⟩)]
    (by decide +kernel) (by decide) 1).2 (by decide +kernel)).2.1.trans (by decide +kernel)

/-- **A snapshot beyond the log loses what is appended**: `last_index_` stays at 1 under the new base 3, so that the
next entry gets index 2 and cannot be read. -/
theorem prune_past_end : let l : SegmentLog RawEntry :=
      ((SegmentLog.openDir [(0, ⟨record (⟨1, 1, [65]⟩ : RawEntry), 0⟩)]).setSnapshotAnchor 3 1).pruneCompacted
    l.lastIndex = 1 ∧ (l.append ⟨1, 0, [66]⟩ true).lastIndex = 2 ∧ (l.append ⟨1, 0, [66]⟩ true).get 2 = none := by
  decide +kernel

end MaxRedis.Storage
