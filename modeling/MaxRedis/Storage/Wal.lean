/-
The write-ahead log's record format and its writer (`wal_writer.cc`, `crc32.h`), and the record reader of
`SegmentLogStorage::ScanSegment`.
-/
import MaxRedis.Core.Crc

namespace MaxRedis.Storage

open Bytes List

/-! ## CRC-32C -/

def crcTable : Array UInt32 := #[
  0x00000000, 0xF26B8303, 0xE13B70F7, 0x1350F3F4, 0xC79A971F, 0x35F1141C, 0x26A1E7E8, 0xD4CA64EB,
  0x8AD958CF, 0x78B2DBCC, 0x6BE22838, 0x9989AB3B, 0x4D43CFD0, 0xBF284CD3, 0xAC78BF27, 0x5E133C24,
  0x105EC76F, 0xE235446C, 0xF165B798, 0x030E349B, 0xD7C45070, 0x25AFD373, 0x36FF2087, 0xC494A384,
  0x9A879FA0, 0x68EC1CA3, 0x7BBCEF57, 0x89D76C54, 0x5D1D08BF, 0xAF768BBC, 0xBC267848, 0x4E4DFB4B,
  0x20BD8EDE, 0xD2D60DDD, 0xC186FE29, 0x33ED7D2A, 0xE72719C1, 0x154C9AC2, 0x061C6936, 0xF477EA35,
  0xAA64D611, 0x580F5512, 0x4B5FA6E6, 0xB93425E5, 0x6DFE410E, 0x9F95C20D, 0x8CC531F9, 0x7EAEB2FA,
  0x30E349B1, 0xC288CAB2, 0xD1D83946, 0x23B3BA45, 0xF779DEAE, 0x05125DAD, 0x1642AE59, 0xE4292D5A,
  0xBA3A117E, 0x4851927D, 0x5B016189, 0xA96AE28A, 0x7DA08661, 0x8FCB0562, 0x9C9BF696, 0x6EF07595,
  0x417B1DBC, 0xB3109EBF, 0xA0406D4B, 0x522BEE48, 0x86E18AA3, 0x748A09A0, 0x67DAFA54, 0x95B17957,
  0xCBA24573, 0x39C9C670, 0x2A993584, 0xD8F2B687, 0x0C38D26C, 0xFE53516F, 0xED03A29B, 0x1F682198,
  0x5125DAD3, 0xA34E59D0, 0xB01EAA24, 0x42752927, 0x96BF4DCC, 0x64D4CECF, 0x77843D3B, 0x85EFBE38,
  0xDBFC821C, 0x2997011F, 0x3AC7F2EB, 0xC8AC71E8, 0x1C661503, 0xEE0D9600, 0xFD5D65F4, 0x0F36E6F7,
  0x61C69362, 0x93AD1061, 0x80FDE395, 0x72966096, 0xA65C047D, 0x5437877E, 0x4767748A, 0xB50CF789,
  0xEB1FCBAD, 0x197448AE, 0x0A24BB5A, 0xF84F3859, 0x2C855CB2, 0xDEEEDFB1, 0xCDBE2C45, 0x3FD5AF46,
  0x7198540D, 0x83F3D70E, 0x90A324FA, 0x62C8A7F9, 0xB602C312, 0x44694011, 0x5739B3E5, 0xA55230E6,
  0xFB410CC2, 0x092A8FC1, 0x1A7A7C35, 0xE811FF36, 0x3CDB9BDD, 0xCEB018DE, 0xDDE0EB2A, 0x2F8B6829,
  0x82F63B78, 0x709DB87B, 0x63CD4B8F, 0x91A6C88C, 0x456CAC67, 0xB7072F64, 0xA457DC90, 0x563C5F93,
  0x082F63B7, 0xFA44E0B4, 0xE9141340, 0x1B7F9043, 0xCFB5F4A8, 0x3DDE77AB, 0x2E8E845F, 0xDCE5075C,
  0x92A8FC17, 0x60C37F14, 0x73938CE0, 0x81F80FE3, 0x55326B08, 0xA759E80B, 0xB4091BFF, 0x466298FC,
  0x1871A4D8, 0xEA1A27DB, 0xF94AD42F, 0x0B21572C, 0xDFEB33C7, 0x2D80B0C4, 0x3ED04330, 0xCCBBC033,
  0xA24BB5A6, 0x502036A5, 0x4370C551, 0xB11B4652, 0x65D122B9, 0x97BAA1BA, 0x84EA524E, 0x7681D14D,
  0x2892ED69, 0xDAF96E6A, 0xC9A99D9E, 0x3BC21E9D, 0xEF087A76, 0x1D63F975, 0x0E330A81, 0xFC588982,
  0xB21572C9, 0x407EF1CA, 0x532E023E, 0xA145813D, 0x758FE5D6, 0x87E466D5, 0x94B49521, 0x66DF1622,
  0x38CC2A06, 0xCAA7A905, 0xD9F75AF1, 0x2B9CD9F2, 0xFF56BD19, 0x0D3D3E1A, 0x1E6DCDEE, 0xEC064EED,
  0xC38D26C4, 0x31E6A5C7, 0x22B65633, 0xD0DDD530, 0x0417B1DB, 0xF67C32D8, 0xE52CC12C, 0x1747422F,
  0x49547E0B, 0xBB3FFD08, 0xA86F0EFC, 0x5A048DFF, 0x8ECEE914, 0x7CA56A17, 0x6FF599E3, 0x9D9E1AE0,
  0xD3D3E1AB, 0x21B862A8, 0x32E8915C, 0xC083125F, 0x144976B4, 0xE622F5B7, 0xF5720643, 0x07198540,
  0x590AB964, 0xAB613A67, 0xB831C993, 0x4A5A4A90, 0x9E902E7B, 0x6CFBAD78, 0x7FAB5E8C, 0x8DC0DD8F,
  0xE330A81A, 0x115B2B19, 0x020BD8ED, 0xF0605BEE, 0x24AA3F05, 0xD6C1BC06, 0xC5914FF2, 0x37FACCF1,
  0x69E9F0D5, 0x9B8273D6, 0x88D28022, 0x7AB90321, 0xAE7367CA, 0x5C18E4C9, 0x4F48173D, 0xBD23943E,
  0xF36E6F75, 0x0105EC76, 0x12551F82, 0xE03E9C81, 0x34F4F86A, 0xC69F7B69, 0xD5CF889D, 0x27A40B9E,
  0x79B737BA, 0x8BDCB4B9, 0x988C474D, 0x6AE7C44E, 0xBE2DA0A5, 0x4C4623A6, 0x5F16D052, 0xAD7D5351
]

def computeCrc32 (data : List UInt8) (crc : UInt32) : UInt32 :=
  ~~~(data.foldl (fun crc p => crcTable.getD ((crc ^^^ p.toUInt32) &&& 0xFF).toNat 0 ^^^ (crc >>> 8)) (~~~crc))

def crcWord (i : ℕ) : UInt32 := crcTable.getD i 0

lemma computeCrc32_eq (data : List UInt8) (crc : UInt32) :
    computeCrc32 data crc = ~~~Crc.run crcWord (~~~crc) data := rfl

lemma topBits_crcTable : Crc.topBits crcTable.toList = 2 ^ 256 - 1 := by decide +kernel

lemma crcWord_topBytes : Crc.TopBytes crcWord := by
  have hsize : crcTable.size = 256 := by decide +kernel
  apply Crc.topBytes_of_surjective
  intro k hk
  have hbit : (Crc.topBits crcTable.toList).testBit k := by
    rw [topBits_crcTable, Nat.testBit_two_pow_sub_one]
    exact decide_eq_true hk
  obtain ⟨w, hw, htop⟩ := Crc.exists_top_of_testBit hbit
  obtain ⟨i, hi, rfl⟩ := mem_iff_getElem.1 hw
  rw [Array.length_toList, hsize] at hi
  refine ⟨i, hi, ?_⟩
  rw [crcWord, Array.getD_eq_getD_getElem?, Array.getElem?_eq_getElem (by omega), Option.getD_some]
  exact htop

/-- **The checksum detects a burst** of up to four bytes, wherever it is. -/
theorem computeCrc32_burst {as xs ys bs : List UInt8} (hlen : xs.length = ys.length) (h4 : xs.length ≤ 4) {crc : UInt32}
    (h : computeCrc32 (as ++ (xs ++ bs)) crc = computeCrc32 (as ++ (ys ++ bs)) crc) : xs = ys := by
  rw [computeCrc32_eq, computeCrc32_eq, UInt32.not_inj] at h
  exact Crc.burst_detected crcWord_topBytes hlen h4 h

lemma run_computeCrc32 (data : List UInt8) : Crc.run crcWord (-1) (data ++ encodeLE 4 (computeCrc32 data 0).toNat) =
      Crc.run crcWord (-1) (replicate 4 0) := by
  rw [Crc.run_append, computeCrc32_eq]
  exact Crc.run_complement crcWord _

def bitwiseCrc32c (data : List UInt8) (crc : UInt32) : UInt32 :=
  ~~~(data.foldl (fun crc p => (Crc.bit 0x82F63B78)^[8] (crc ^^^ p.toUInt32)) (~~~crc))

lemma crcWord_bits : ∀ i < 256, crcWord i = (Crc.bit 0x82F63B78)^[8] (.ofNat i) := by decide +kernel

/-- **The checksum is CRC-32C**, and it can be computed piece by piece. -/
theorem computeCrc32_is_crc32c (crc : UInt32) (as bs : List UInt8) : computeCrc32 as crc = bitwiseCrc32c as crc ∧
    computeCrc32 (as ++ bs) crc = computeCrc32 bs (computeCrc32 as crc) := by
  constructor
  · rw [computeCrc32_eq, Crc.run_eq_bits 0x82F63B78 crcWord_bits, bitwiseCrc32c]
  · rw [computeCrc32_eq, Crc.run_append, computeCrc32_eq, computeCrc32_eq, UInt32.not_not]

/-! ## Records -/

/-- a log entry as the format has it; `withIndex` is the index that `Append` assigns -/
class WalEntry (E : Type) where
  index : E → ℕ
  term : E → ℕ
  command : E → List UInt8
  ofRecord : (index term : ℕ) → (command : List UInt8) → E
  withIndex : E → ℕ → E
  /-- the sentinel before the first entry -/
  blank : E
  ofRecord_self : ∀ e, ofRecord (index e) (term e) (command e) = e
  index_withIndex : ∀ e i, index (withIndex e i) = i
  term_withIndex : ∀ e i, term (withIndex e i) = term e
  command_withIndex : ∀ e i, command (withIndex e i) = command e
  withIndex_self : ∀ e, withIndex e (index e) = e
  index_blank : index blank = 0

attribute [simp] WalEntry.index_withIndex WalEntry.term_withIndex WalEntry.command_withIndex

structure RawEntry where
  term : ℕ
  index : ℕ
  command : List UInt8
  deriving DecidableEq

instance : WalEntry RawEntry where
  index := RawEntry.index
  term := RawEntry.term
  command := RawEntry.command
  ofRecord index term command := ⟨term, index, command⟩
  withIndex e i := { e with index := i }
  blank := ⟨0, 0, []⟩
  ofRecord_self _ := rfl
  index_withIndex _ _ := rfl
  term_withIndex _ _ := rfl
  command_withIndex _ _ := rfl
  withIndex_self _ := rfl
  index_blank := rfl

def headerSize : ℕ := 24

structure RecordHeader where
  index : ℕ
  term : ℕ
  size : ℕ
  crc32 : ℕ
  deriving DecidableEq

namespace RecordHeader

def bytes (h : RecordHeader) : List UInt8 :=
  encodeLE 8 h.index ++ encodeLE 8 h.term ++ encodeLE 4 h.size ++ encodeLE 4 h.crc32

def ofBytes (bs : List UInt8) : RecordHeader :=
  ⟨decodeLE (bs.take 8), decodeLE ((bs.drop 8).take 8), decodeLE ((bs.drop 16).take 4), decodeLE ((bs.drop 20).take 4)⟩

@[simp] lemma length_bytes (h : RecordHeader) : h.bytes.length = headerSize := by
  simp [bytes, headerSize]

lemma ofBytes_bytes (h : RecordHeader) (h1 : h.index < 2 ^ 64) (h2 : h.term < 2 ^ 64) (h3 : h.size < 2 ^ 32)
    (h4 : h.crc32 < 2 ^ 32) : ofBytes h.bytes = h := by
  obtain ⟨index, term, size, crc⟩ := h
  have e1 : decodeLE (encodeLE 8 index) = index := decodeLE_encodeLE_of_lt (by simpa using h1)
  have e2 : decodeLE (encodeLE 8 term) = term := decodeLE_encodeLE_of_lt (by simpa using h2)
  have e3 : decodeLE (encodeLE 4 size) = size := decodeLE_encodeLE_of_lt (by simpa using h3)
  have e4 : decodeLE (encodeLE 4 crc) = crc := decodeLE_encodeLE_of_lt (by simpa using h4)
  simp only [ofBytes, bytes, append_assoc, mk.injEq]
  refine ⟨?_, ?_, ?_, ?_⟩
  · rw [take_left' (by simp), e1]
  · rw [drop_left' (by simp), take_left' (by simp), e2]
  · rw [← append_assoc, drop_left' (by simp), take_left' (by simp), e3]
  · rw [← append_assoc, ← append_assoc, drop_left' (by simp), take_of_length_le (by simp), e4]

end RecordHeader

section Format
variable {E : Type} [WalEntry E] (e : E)

open WalEntry

def header (e : E) : RecordHeader :=
  ⟨index e, term e, (command e).length % 2 ^ 32, (computeCrc32 (command e) 0).toNat⟩

def record (e : E) : List UInt8 := (header e).bytes ++ command e

/-- one turn of `ScanSegment`'s loop: the next record, unless the scan stops here -/
def readRecord (lastIndex : ℕ) (bs : List UInt8) : Option (E × List UInt8) :=
  if bs.length < headerSize then none
  else
    let hdr := RecordHeader.ofBytes (bs.take headerSize)
    if hdr.size = 0 then none
    else if hdr.index ≤ lastIndex then none
    else
      let payload := (bs.drop headerSize).take hdr.size
      if payload.length ≠ hdr.size then none
      else if (computeCrc32 payload 0).toNat ≠ hdr.crc32 then none
      else some (ofRecord hdr.index hdr.term payload, bs.drop (headerSize + hdr.size))

structure Storable (e : E) : Prop where
  index : WalEntry.index e < 2 ^ 64
  term : WalEntry.term e < 2 ^ 64
  nonempty : command e ≠ []
  size : (command e).length < 2 ^ 32

instance (e : E) : Decidable (Storable e) :=
  decidable_of_iff (WalEntry.index e < 2 ^ 64 ∧ WalEntry.term e < 2 ^ 64 ∧ command e ≠ [] ∧ (command e).length < 2 ^ 32)
    ⟨fun h => ⟨h.1, h.2.1, h.2.2.1, h.2.2.2⟩, fun h => ⟨h.index, h.term, h.nonempty, h.size⟩⟩

@[simp] lemma length_record : (record e).length = headerSize + (command e).length := by
  simp [record]

lemma record_pos : 0 < (record e).length := by
  rw [length_record, headerSize]; omega

lemma Storable.header {e : E} (h : Storable e) : RecordHeader.ofBytes (header e).bytes = Storage.header e :=
  RecordHeader.ofBytes_bytes _ h.index h.term (Nat.mod_lt _ (by decide)) (UInt32.toNat_lt _)

@[simp] lemma readRecord_nil (last : ℕ) : readRecord (E := E) last [] = none := by
  simp [readRecord, headerSize]

structure Framed (e : E) : Prop where
  index : WalEntry.index e < 2 ^ 64
  term : WalEntry.term e < 2 ^ 64
  size : (command e).length < 2 ^ 32

lemma Storable.framed {e : E} (h : Storable e) : Framed e := ⟨h.index, h.term, h.size⟩

def headerFields (e : E) : List UInt8 :=
  encodeLE 8 (index e) ++ encodeLE 8 (term e) ++ encodeLE 4 ((command e).length % 2 ^ 32)

@[simp] lemma length_headerFields : (headerFields e).length = 20 := by
  simp [headerFields]

lemma record_eq :
    record e = headerFields e ++ (encodeLE 4 (computeCrc32 (command e) 0).toNat ++ command e) := by
  rw [← append_assoc]
  rfl

lemma readRecord_frame {e : E} (h : Framed e) (last : ℕ) {crc payload : List UInt8} (hcrc : crc.length = 4)
    (hlen : payload.length = (command e).length) (rest : List UInt8) :
    readRecord (E := E) last (headerFields e ++ (crc ++ (payload ++ rest))) =
      if payload = [] then none else if index e ≤ last then none
      else if (computeCrc32 payload 0).toNat ≠ decodeLE crc then none
      else some (ofRecord (index e) (term e) payload, rest) := by
  have hof : RecordHeader.ofBytes (headerFields e ++ crc) = ⟨index e, term e, payload.length, decodeLE crc⟩ := by
    have hback := encodeLE_decodeLE crc
    have hlt := decodeLE_lt crc
    rw [hcrc] at hback hlt
    rw [← RecordHeader.ofBytes_bytes ⟨index e, term e, payload.length, decodeLE crc⟩ h.index h.term (hlen ▸ h.size) hlt]
    rw [RecordHeader.bytes, hback, headerFields, Nat.mod_eq_of_lt h.size, hlen]
  have hsize : (headerFields e ++ crc).length = headerSize := by
    rw [length_append, length_headerFields, hcrc]
    rfl
  have hdrop : (headerFields e ++ crc ++ (payload ++ rest)).drop (headerSize + payload.length) = rest := by
    rw [← drop_drop, drop_left' hsize, drop_left]
  rw [← append_assoc]
  unfold readRecord
  rw [if_neg (by rw [length_append, hsize]; omega), take_left' hsize, drop_left' hsize, hof]
  simp only [hdrop, take_left, length_eq_zero_iff, ne_eq, not_true_eq_false, if_false]

theorem readRecord_record {e : E} (h : Storable e) {last : ℕ} (hi : last < index e) (rest : List UInt8) :
    readRecord last (record e ++ rest) = some (e, rest) := by
  have hcrc : decodeLE (encodeLE 4 (computeCrc32 (command e) 0).toNat) = (computeCrc32 (command e) 0).toNat :=
    decodeLE_encodeLE_of_lt (by simpa using UInt32.toNat_lt _)
  rw [record_eq, append_assoc, append_assoc, readRecord_frame h.framed last (by simp) rfl, hcrc,
    if_neg h.nonempty, if_neg (by omega), if_neg (by simp), ofRecord_self]

end Format

/-! ## Files and the writer -/

structure SegFile where
  bytes : List UInt8 := []
  synced : ℕ := 0
  deriving DecidableEq, Repr

def SegFile.crash (f : SegFile) : SegFile := ⟨f.bytes.take f.synced, (f.bytes.take f.synced).length⟩

/-- an open `WalWriter`: the size of the file and what has not been written to it -/
structure WalWriter where
  fileSize : ℕ := 0
  buf : List UInt8 := []
  deriving DecidableEq, Repr

namespace WalWriter

def openAppend (f : SegFile) : WalWriter := ⟨f.bytes.length, []⟩

def nextWriteOffset (w : WalWriter) : ℕ := w.fileSize + w.buf.length

def append {E : Type} [WalEntry E] (w : WalWriter) (e : E) : WalWriter := { w with buf := w.buf ++ record e }

/-- `fwrite`, `fflush` and `fdatasync`; with an empty buffer none of the three is called -/
def flush (w : WalWriter) (f : SegFile) : WalWriter × SegFile :=
  if w.buf = [] then (w, f)
  else (⟨w.fileSize + w.buf.length, []⟩, ⟨f.bytes ++ w.buf, (f.bytes ++ w.buf).length⟩)

def writeNoSync (w : WalWriter) (f : SegFile) : WalWriter × SegFile :=
  if w.buf = [] then (w, f) else (⟨w.fileSize + w.buf.length, []⟩, { f with bytes := f.bytes ++ w.buf })

end WalWriter

end MaxRedis.Storage
