/-
The frames of RPC messages and the payloads of responses (`raft_codec.cc`, `raft_rpc.proto`).
-/
import MaxRedis.Storage.Wal

namespace MaxRedis.Rpc

variable {r : UInt8 × ℕ × List UInt8}

open Bytes Storage List

/-! ## Types -/

inductive RpcType where
  | appendEntriesReq
  | appendEntriesRsp
  | voteReq
  | voteRsp
  | heartbeatReq
  | heartbeatRsp
  | installSnapshotReq
  | installSnapshotRsp
  | readIndexReq
  | readIndexRsp
  | timeoutNowReq
  | timeoutNowRsp
  deriving DecidableEq, Repr

def RpcType.code : RpcType → UInt8
  | .appendEntriesReq => 1
  | .appendEntriesRsp => 2
  | .voteReq => 3
  | .voteRsp => 4
  | .heartbeatReq => 5
  | .heartbeatRsp => 6
  | .installSnapshotReq => 7
  | .installSnapshotRsp => 8
  | .readIndexReq => 9
  | .readIndexRsp => 10
  | .timeoutNowReq => 11
  | .timeoutNowRsp => 12

/-! ## Responses -/

inductive RpcResponse where
  | appendEntries (groupId : UInt32) (term : UInt64) (success : Bool) (lastLogIndex : UInt64)
  | vote (groupId : UInt32) (term : UInt64) (voteGranted : Bool)
  | heartbeat (groupId : UInt32) (term : UInt64) (success : Bool) (lastLogIndex : UInt64)
  | installSnapshot (groupId : UInt32) (term : UInt64) (success : Bool)
  | readIndex (groupId : UInt32) (term : UInt64) (success : Bool) (commitIndex : UInt64)
  | timeoutNow (groupId : UInt32) (term : UInt64) (accepted : Bool)
  deriving DecidableEq

namespace RpcResponse

def type : RpcResponse → RpcType
  | .appendEntries .. => .appendEntriesRsp
  | .vote .. => .voteRsp
  | .heartbeat .. => .heartbeatRsp
  | .installSnapshot .. => .installSnapshotRsp
  | .readIndex .. => .readIndexRsp
  | .timeoutNow .. => .timeoutNowRsp

end RpcResponse

/-- the serialised responses: protobuf messages of at most four fields, each with a tag and a number of at most ten
bytes -/
class PayloadCodec where
  payload : RpcResponse → List UInt8
  length_payload : ∀ rsp, (payload rsp).length ≤ 44

def RpcResponse.payload [PayloadCodec] (rsp : RpcResponse) : List UInt8 := PayloadCodec.payload rsp

lemma RpcResponse.length_payload [PayloadCodec] (rsp : RpcResponse) : rsp.payload.length ≤ 44 :=
  PayloadCodec.length_payload rsp

/-! ## Frames -/

def rpcFrameMagic : List UInt8 := [0x52, 0x46, 0x30, 0x31]

def rpcFrameHeaderSize : ℕ := 13

def rpcFrameCrcSize : ℕ := 4

def rpcFrameHeader (type : RpcType) (seq : UInt32) (payload : List UInt8) : List UInt8 :=
  rpcFrameMagic ++ [type.code] ++ encodeLE 4 seq.toNat ++ encodeLE 4 (payload.length % 2 ^ 32)

def encodeRpcFrame (type : RpcType) (seq : UInt32) (payload : List UInt8) : List UInt8 :=
  let frame := rpcFrameHeader type seq payload ++ payload
  frame ++ encodeLE 4 (computeCrc32 frame 0).toNat

def parseRpcFrame (frame : List UInt8) : Option (UInt8 × ℕ × List UInt8) :=
  if frame.length < rpcFrameHeaderSize + rpcFrameCrcSize then none
  else if frame.take 4 ≠ rpcFrameMagic then none
  else
    let seq := decodeLE ((frame.drop 5).take 4)
    let len := decodeLE ((frame.drop 9).take 4)
    if frame.length - rpcFrameHeaderSize - rpcFrameCrcSize < len then none
    else
      let body := frame.take (rpcFrameHeaderSize + len)
      let expected := decodeLE ((frame.drop (rpcFrameHeaderSize + len)).take 4)
      if (computeCrc32 body 0).toNat ≠ expected then none
      else some ((frame[4]?).getD 0, seq, (frame.drop rpcFrameHeaderSize).take len)

section Frame
variable (type : RpcType) (seq : UInt32) (payload : List UInt8)

@[simp] lemma length_rpcFrameHeader : (rpcFrameHeader type seq payload).length = rpcFrameHeaderSize := by
  simp [rpcFrameHeader, rpcFrameMagic, rpcFrameHeaderSize]

@[simp] lemma length_encodeRpcFrame : (encodeRpcFrame type seq payload).length =
    rpcFrameHeaderSize + payload.length + rpcFrameCrcSize := by
  simp [encodeRpcFrame, rpcFrameCrcSize, Nat.add_assoc]

lemma header_length (h : payload.length < 2 ^ 32) :
    decodeLE (((rpcFrameHeader type seq payload).drop 9).take 4) = payload.length := by
  have hdrop : (rpcFrameHeader type seq payload).drop 9 = encodeLE 4 (payload.length % 2 ^ 32) := by
    exact drop_left' (by simp [rpcFrameMagic])
  rw [hdrop, take_of_length_le (by simp), Nat.mod_eq_of_lt h, decodeLE_encodeLE_of_lt (by simpa using h)]

lemma header_seq : decodeLE (((rpcFrameHeader type seq payload).drop 5).take 4) = seq.toNat := by
  have hdrop : (rpcFrameHeader type seq payload).drop 5 =
    encodeLE 4 seq.toNat ++ encodeLE 4 (payload.length % 2 ^ 32) := by
    unfold rpcFrameHeader
    rw [append_assoc]
    exact drop_left' (by simp [rpcFrameMagic])
  rw [hdrop, take_left' (by simp), decodeLE_encodeLE_of_lt (by simpa using seq.toNat_lt)]

theorem parseRpcFrame_encodeRpcFrame (h : payload.length < 2 ^ 32) :
    parseRpcFrame (encodeRpcFrame type seq payload) = some (type.code, seq.toNat, payload) := by
  set header := rpcFrameHeader type seq payload with hheader
  set crc := encodeLE 4 (computeCrc32 (header ++ payload) 0).toNat with hcrc
  have hlen : header.length = rpcFrameHeaderSize := length_rpcFrameHeader type seq payload
  have hframe : encodeRpcFrame type seq payload = header ++ (payload ++ crc) := by
    show header ++ payload ++ crc = _
    rw [append_assoc]
  -- what lies in the header is read from the header
  have hin : ∀ i n, i + n ≤ rpcFrameHeaderSize →
    ((header ++ (payload ++ crc)).drop i).take n = (header.drop i).take n := by
    intro i n hn
    rw [drop_append_of_le_length (by omega), take_append_of_le_length (by rw [length_drop]; omega)]
  have hmagic : (header ++ (payload ++ crc)).take 4 = rpcFrameMagic := by
    have := hin 0 4 (by decide)
    rw [drop_zero] at this
    rw [this, hheader, rpcFrameHeader, append_assoc, append_assoc]
    exact take_left' rfl
  have htype : ((header ++ (payload ++ crc))[4]?).getD 0 = type.code := by
    rfl
  have hbody : (header ++ (payload ++ crc)).take (rpcFrameHeaderSize + payload.length) = header ++ payload := by
    rw [← append_assoc]
    exact take_left' (by rw [length_append, hlen])
  have hrest : (header ++ (payload ++ crc)).drop (rpcFrameHeaderSize + payload.length) = crc := by
    rw [← append_assoc]
    exact drop_left' (by rw [length_append, hlen])
  have hcrcVal : decodeLE (crc.take 4) = (computeCrc32 (header ++ payload) 0).toNat := by
    rw [take_of_length_le (by rw [hcrc]; simp), decodeLE_encodeLE_of_lt (by simpa using UInt32.toNat_lt _)]
  have hpayload : ((header ++ (payload ++ crc)).drop rpcFrameHeaderSize).take payload.length = payload := by
    exact take_left' rfl
  have hsize : (header ++ (payload ++ crc)).length = rpcFrameHeaderSize + payload.length + rpcFrameCrcSize := by
    rw [← hframe]; exact length_encodeRpcFrame type seq payload
  rw [hframe]
  unfold parseRpcFrame
  rw [if_neg (by rw [hsize]; omega), if_neg (by rw [hmagic]; simp), hin 5 4 (by decide), hin 9 4 (by decide), hheader,
    header_seq, header_length type seq payload h, ← hheader]
  rw [if_neg (by rw [hsize]; omega), hbody, hrest, hcrcVal, if_neg (by simp), hpayload, htype]

end Frame

/-! ## Errors -/

def frameLength (frame : List UInt8) : ℕ := decodeLE ((frame.drop 9).take 4)

lemma frameLength_congr {f g : List UInt8} (h : ∀ j, 9 ≤ j → j < 13 → f[j]? = g[j]?) :
    frameLength f = frameLength g := by
  have heq : (f.drop 9).take 4 = (g.drop 9).take 4 := by
    apply ext_getElem?
    intro j
    rw [getElem?_take, getElem?_take, getElem?_drop, getElem?_drop]
    split_ifs with hj
    · exact h (9 + j) (by omega) (by omega)
    · rfl
  rw [frameLength, heq, frameLength]

lemma parseRpcFrame_accepts {g : List UInt8} (h : parseRpcFrame g = some r) :
    rpcFrameHeaderSize + frameLength g + rpcFrameCrcSize ≤ g.length ∧
    (computeCrc32 (g.take (rpcFrameHeaderSize + frameLength g)) 0).toNat =
      decodeLE ((g.drop (rpcFrameHeaderSize + frameLength g)).take 4) := by
  unfold parseRpcFrame at h
  dsimp only at h
  split_ifs at h with hshort hmagic hlen hcrc
  unfold frameLength
  exact ⟨by omega, not_not.1 hcrc⟩

lemma residue_of_accepted {g : List UInt8} (h : parseRpcFrame g = some r)
    (hlen : g.length = rpcFrameHeaderSize + frameLength g + rpcFrameCrcSize) :
    Crc.run crcWord (-1) g = Crc.run crcWord (-1) (replicate 4 0) := by
  obtain ⟨-, hcrc⟩ := parseRpcFrame_accepts h
  set body := g.take (rpcFrameHeaderSize + frameLength g) with hbody
  set crc := g.drop (rpcFrameHeaderSize + frameLength g) with hdrop
  have hfour : crc.length = 4 := by
    rw [length_drop, hlen, rpcFrameCrcSize]
    omega
  have hbytes : crc = encodeLE 4 (computeCrc32 body 0).toNat := by
    rw [take_of_length_le (by omega)] at hcrc
    rw [hcrc, ← hfour, encodeLE_decodeLE]
  calc
    Crc.run crcWord (-1) g = Crc.run crcWord (-1) (body ++ crc) := by rw [take_append_drop]
    _ = Crc.run crcWord (-1) (replicate 4 0) := by rw [hbytes]; exact run_computeCrc32 body

section Errors
variable (type : RpcType) (seq : UInt32) (payload : List UInt8) {p : List UInt8}

section
variable (h : payload.length < 2 ^ 32)
include h

lemma frameLength_encode (hp : p <+: encodeRpcFrame type seq payload)
    (hlong : rpcFrameHeaderSize ≤ p.length) : frameLength p = payload.length := by
  have hheader : rpcFrameHeader type seq payload <+: encodeRpcFrame type seq payload := by
    unfold encodeRpcFrame
    exact prefix_append _ _
  obtain ⟨rest, rfl⟩ := prefix_of_prefix_length_le hheader hp (by rw [length_rpcFrameHeader]; exact hlong)
  rw [← header_length type seq payload h]
  apply frameLength_congr
  intro j _ hj
  exact getElem?_append_left (by rw [length_rpcFrameHeader]; exact hj)

lemma parseRpcFrame_cut (hp : p <+: encodeRpcFrame type seq payload)
    (hne : p ≠ encodeRpcFrame type seq payload) : parseRpcFrame p = none := by
  have hshort : p.length < (encodeRpcFrame type seq payload).length := by
    rcases Nat.lt_or_ge p.length (encodeRpcFrame type seq payload).length with hlt | hge
    · exact hlt
    · exact absurd (hp.eq_of_length_le hge) hne
  rw [length_encodeRpcFrame] at hshort
  cases hr : parseRpcFrame p with
  | none => rfl
  | some =>
    have hfits := (parseRpcFrame_accepts hr).1
    rw [frameLength_encode type seq payload h hp (by omega)] at hfits
    omega

lemma parseRpcFrame_burst {g : List UInt8} {i k : ℕ}
    (hlen : g.length = (encodeRpcFrame type seq payload).length) (hk : k ≤ 4) (hout : i + k ≤ 9 ∨ 13 ≤ i)
    (hsame : ∀ j, j < i ∨ i + k ≤ j → g[j]? = (encodeRpcFrame type seq payload)[j]?)
    (hne : g ≠ encodeRpcFrame type seq payload) : parseRpcFrame g = none := by
  have hread := parseRpcFrame_encodeRpcFrame type seq payload h
  have hsize := length_encodeRpcFrame type seq payload
  have hflen := frameLength_encode type seq payload h (prefix_refl _) (by rw [hsize]; omega)
  generalize encodeRpcFrame type seq payload = f at hlen hsame hne hread hsize hflen
  cases hr : parseRpcFrame g with
  | none => rfl
  | some =>
    exfalso
    have hglen : frameLength g = payload.length := by
      rw [← hflen]
      exact frameLength_congr (fun j h1 h2 => hsame j (by omega))
    have hres : Crc.run crcWord (-1) g = Crc.run crcWord (-1) f := by
      rw [residue_of_accepted hr (by rw [hlen, hsize, hglen]), residue_of_accepted hread (by rw [hsize, hflen])]
    -- the two frames, cut at the two ends of the window
    have hbefore : g.take i = f.take i := by
      apply ext_getElem?
      intro j
      rw [getElem?_take, getElem?_take]
      split_ifs with hj
      · exact hsame j (Or.inl hj)
      · rfl
    have hbehind : g.drop (i + k) = f.drop (i + k) := by
      apply ext_getElem?
      intro j
      rw [getElem?_drop, getElem?_drop]
      exact hsame _ (Or.inr (by omega))
    have hsplit : ∀ l : List UInt8, l = l.take i ++ ((l.drop i).take k ++ l.drop (i + k)) := by
      intro l
      rw [← drop_drop, take_append_drop, take_append_drop]
    have hwindow : (g.drop i).take k = (f.drop i).take k := by
      rw [hsplit g, hsplit f, hbefore, hbehind] at hres
      exact Crc.burst_detected crcWord_topBytes (by simp [hlen]) (by simp; omega) hres
    exact hne (by rw [hsplit g, hsplit f, hbefore, hbehind, hwindow])

end

/-- **Frames are exact and error-detecting.** -/
theorem rpcFrame_exact (h : payload.length < 2 ^ 32) :
    parseRpcFrame (encodeRpcFrame type seq payload) = some (type.code, seq.toNat, payload) ∧
    (∀ p, p <+: encodeRpcFrame type seq payload → p ≠ encodeRpcFrame type seq payload → parseRpcFrame p = none) ∧
    ∀ (g : List UInt8) (i k : ℕ), g.length = (encodeRpcFrame type seq payload).length → k ≤ 4 →
      (i + k ≤ 9 ∨ 13 ≤ i) → (∀ j, j < i ∨ i + k ≤ j → g[j]? = (encodeRpcFrame type seq payload)[j]?) →
      g ≠ encodeRpcFrame type seq payload → parseRpcFrame g = none :=
  ⟨parseRpcFrame_encodeRpcFrame type seq payload h, fun _ hp hne => parseRpcFrame_cut type seq payload h hp hne,
    fun _ _ _ hlen hk hout hsame hne => parseRpcFrame_burst type seq payload h hlen hk hout hsame hne⟩

/-- a vote request of two bytes -/
theorem rpcFrame_exact_voteReq :
    parseRpcFrame (encodeRpcFrame .voteReq 7 [8, 1]) = some (RpcType.voteReq.code, (7 : UInt32).toNat, [8, 1]) :=
  (rpcFrame_exact .voteReq 7 [8, 1] (by decide)).1

end Errors

end MaxRedis.Rpc
