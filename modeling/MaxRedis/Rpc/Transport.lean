/-
The RPCs of one thread (`TcpTransport::DoRpc`).

A thread keeps one connection per peer. The mutex of a connection is held for a whole round trip, so a peer has one RPC
at a time; RPCs to different peers interleave.
-/
import MaxRedis.Rpc.Frame

namespace MaxRedis.Rpc

open Bytes List

/-! ## The read loop -/

def maxFramePayload : ℕ := 256 * 1024 * 1024

def readN (bytes : List UInt8) (n arrive : ℕ) : List UInt8 := bytes.take (min n arrive)

inductive Turn where
  /-- nothing arrived; the stream is where it was -/
  | nothing
  /-- a part of a frame, a length out of bounds, or a frame that does not parse -/
  | broken
  | frame (type : UInt8) (seq : ℕ) (payload : List UInt8) (size : ℕ)

def takeFrame (bytes : List UInt8) (arriveHeader arrivePayload arriveCrc : ℕ) : Turn :=
  let header := readN bytes rpcFrameHeaderSize arriveHeader
  if header.length < rpcFrameHeaderSize then
    if header.length = 0 then .nothing else .broken
  else
    let payloadLen := decodeLE ((header.drop 9).take 4)
    if maxFramePayload < payloadLen then .broken
    else
      let payload := readN (bytes.drop rpcFrameHeaderSize) payloadLen arrivePayload
      let crc := readN (bytes.drop (rpcFrameHeaderSize + payload.length)) rpcFrameCrcSize arriveCrc
      if payload.length ≠ payloadLen ∨ crc.length ≠ rpcFrameCrcSize then .broken
      else
        match parseRpcFrame (header ++ payload ++ crc) with
        | none => .broken
        | some (type, seq, found) => .frame type seq found (rpcFrameHeaderSize + payloadLen + rpcFrameCrcSize)

/-! ## Threads -/

section Threads
variable [PayloadCodec]

structure Conn where
  answers : List (UInt32 × RpcResponse) := []
  read : ℕ := 0

def answerFrame (a : UInt32 × RpcResponse) : List UInt8 := encodeRpcFrame a.2.type a.1 a.2.payload

def Conn.stream (c : Conn) : List UInt8 := writeAll answerFrame c.answers

/-- a `DoRpc` that waits for its response; `answer` is the response that the peer gives to it -/
structure Waiting where
  seq : UInt32
  expected : RpcType
  answer : RpcResponse

structure PeerConn where
  sock : Option Conn := none
  waiting : Option Waiting := none

/-- how a `DoRpc` that has written its request ended: the peer's response to it, and the payload returned, if any -/
structure Outcome where
  answer : RpcResponse
  returned : Option (List UInt8)

structure ThreadConns (N : Type) where
  conns : N → PeerConn := fun _ => {}
  seqCounter : UInt32 := 0
  outcomes : List Outcome := []

inductive RpcEvent (N : Type) where
  | start (peer : N) (expected : RpcType) (isOpen connects writes : Bool) (answer : RpcResponse)
  | turn (peer : N) (arriveHeader arrivePayload arriveCrc : ℕ)

def RpcEvent.issues {N : Type} : RpcEvent N → Bool
  | .start .. => true
  | .turn .. => false

namespace ThreadConns

variable {N : Type} [DecidableEq N]

def set (t : ThreadConns N) (peer : N) (pc : PeerConn) : ThreadConns N :=
  { t with conns := fun p => if p = peer then pc else t.conns p }

def finish (t : ThreadConns N) (peer : N) (sock : Option Conn) (w : Waiting) (returned : Option (List UInt8)) :
    ThreadConns N :=
  { t.set peer { sock := sock } with outcomes := ⟨w.answer, returned⟩ :: t.outcomes }

def start (t : ThreadConns N) (peer : N) (expected : RpcType) (isOpen connects writes : Bool) (answer : RpcResponse) :
    ThreadConns N :=
  let pc := t.conns peer
  -- another fiber holds the mutex of this connection
  if pc.waiting.isSome then t
  else
    let sock := if isOpen then pc.sock else none
    match sock, connects with
    | none, false => t.set peer {}
    | _, _ =>
      let conn := sock.getD {}
      let seq := t.seqCounter + 1
      if writes then
        { t.set peer ⟨some { conn with answers := conn.answers ++ [(seq, answer)] }, some ⟨seq, expected, answer⟩⟩ with
          seqCounter := seq }
      else { t.set peer {} with seqCounter := seq }

def turn (t : ThreadConns N) (peer : N) (arriveHeader arrivePayload arriveCrc : ℕ) : ThreadConns N :=
  match (t.conns peer).sock, (t.conns peer).waiting with
  | some conn, some w =>
    match takeFrame (conn.stream.drop conn.read) arriveHeader arrivePayload arriveCrc with
    | .nothing => t.finish peer (some conn) w none
    | .broken => t.finish peer none w none
    | .frame type seq payload size =>
      let conn := { conn with read := conn.read + size }
      if seq ≠ w.seq.toNat then t.set peer ⟨some conn, some w⟩
      else if type ≠ w.expected.code then t.finish peer none w none
      else t.finish peer (some conn) w (some payload)
  | _, _ => t

def step (t : ThreadConns N) : RpcEvent N → ThreadConns N
  | .start peer expected isOpen connects writes answer => t.start peer expected isOpen connects writes answer
  | .turn peer arriveHeader arrivePayload arriveCrc => t.turn peer arriveHeader arrivePayload arriveCrc

def run (t : ThreadConns N) (es : List (RpcEvent N)) : ThreadConns N := es.foldl step t

end ThreadConns

/-! ## Frames in a stream -/

section Stream
variable {bytes : List UInt8} {n arrive : ℕ}

omit [PayloadCodec] in
lemma length_readN : (readN bytes n arrive).length = min (min n arrive) bytes.length := by
  rw [readN, length_take]

omit [PayloadCodec] in
lemma readN_whole (h : (readN bytes n arrive).length = n) : readN bytes n arrive = bytes.take n := by
  rw [length_readN] at h
  rw [readN, show min n arrive = n by omega]

/-- **A turn at the beginning of a frame** finds nothing, breaks, or reads exactly this frame. -/
theorem takeFrame_next (a : UInt32 × RpcResponse) (rest : List UInt8) (h p c : ℕ) :
    takeFrame (answerFrame a ++ rest) h p c = .nothing ∨ takeFrame (answerFrame a ++ rest) h p c = .broken ∨
    takeFrame (answerFrame a ++ rest) h p c = .frame a.2.type.code a.1.toNat a.2.payload (answerFrame a).length := by
  obtain ⟨seq, rsp⟩ := a
  have hsmall := rsp.length_payload
  have hfit : rsp.payload.length < 2 ^ 32 := by omega
  set header := rpcFrameHeader rsp.type seq rsp.payload with hheader
  set crc := encodeLE 4 (Storage.computeCrc32 (header ++ rsp.payload) 0).toNat with hcrc
  have hlenH : header.length = rpcFrameHeaderSize := length_rpcFrameHeader _ _ _
  have hlenC : crc.length = rpcFrameCrcSize := by rw [hcrc]; simp [rpcFrameCrcSize]
  have hframe : answerFrame (seq, rsp) = header ++ rsp.payload ++ crc := rfl
  have hbytes : answerFrame (seq, rsp) ++ rest = header ++ (rsp.payload ++ (crc ++ rest)) := by
    rw [hframe, append_assoc, append_assoc]
  have hsize : (answerFrame (seq, rsp)).length = rpcFrameHeaderSize + rsp.payload.length + rpcFrameCrcSize :=
    length_encodeRpcFrame _ _ _
  rw [hbytes]
  unfold takeFrame
  dsimp only
  by_cases hshort : (readN (header ++ (rsp.payload ++ (crc ++ rest))) rpcFrameHeaderSize h).length < rpcFrameHeaderSize
  · rw [if_pos hshort]
    split_ifs
    · exact Or.inl rfl
    · exact Or.inr (Or.inl rfl)
  -- the header has arrived
  rw [if_neg hshort]
  have hH : readN (header ++ (rsp.payload ++ (crc ++ rest))) rpcFrameHeaderSize h = header := by
    rw [readN_whole (by rw [length_readN] at hshort ⊢; omega)]
    exact take_left' hlenH
  have hL : decodeLE ((header.drop 9).take 4) = rsp.payload.length := header_length _ _ _ hfit
  rw [hH, hL, if_neg (by unfold maxFramePayload; omega), drop_left' hlenH]
  split_ifs with hpart
  · exact Or.inr (Or.inl rfl)
  -- so have the payload and the checksum
  push Not at hpart
  obtain ⟨hp1, hc1⟩ := hpart
  have hP : readN (rsp.payload ++ (crc ++ rest)) rsp.payload.length p = rsp.payload := by
    rw [readN_whole hp1]
    exact take_left' rfl
  rw [hP] at hc1 ⊢
  have hdrop : (header ++ (rsp.payload ++ (crc ++ rest))).drop (rpcFrameHeaderSize + rsp.payload.length) =
    crc ++ rest := by
    rw [← append_assoc]
    exact drop_left' (by rw [length_append, hlenH])
  rw [hdrop] at hc1 ⊢
  have hC : readN (crc ++ rest) rpcFrameCrcSize c = crc := by
    rw [readN_whole hc1]
    exact take_left' hlenC
  rw [hC, ← hframe]
  have hparse : parseRpcFrame (answerFrame (seq, rsp)) = some (rsp.type.code, seq.toNat, rsp.payload) :=
    parseRpcFrame_encodeRpcFrame _ _ _ hfit
  rw [hparse, hsize]
  exact Or.inr (Or.inr rfl)

end Stream

/-! ## Connections that are in step -/

omit [PayloadCodec] in
lemma takeFrame_nil (h p c : ℕ) : takeFrame [] h p c = .nothing := by
  have : readN [] rpcFrameHeaderSize h = [] := take_nil
  unfold takeFrame
  rw [this]
  rfl

/-- The first answers have been read to the end of their frames. The sequence numbers are at most the thread's counter,
and only the answer to the RPC that waits has its number. -/
structure InStep (counter : ℕ) (c : Conn) (waiting : Option Waiting) (done rest : List (UInt32 × RpcResponse)) :
    Prop where
  answers : c.answers = done ++ rest
  read : c.read = (writeAll answerFrame done).length
  le : ∀ a ∈ c.answers, a.1.toNat ≤ counter
  own : ∀ w, waiting = some w → ∀ a ∈ c.answers, a.1 = w.seq → a.2 = w.answer

namespace InStep

variable {counter counter' : ℕ} {c : Conn} {waiting : Option Waiting} {done rest : List (UInt32 × RpcResponse)}

section
variable (h : InStep counter c waiting done rest)
include h

lemma stream : c.stream.drop c.read = writeAll answerFrame rest := by
  rw [Conn.stream, h.answers, h.read, writeAll_append]
  exact drop_left' rfl

lemma mono (hle : counter ≤ counter') : InStep counter' c waiting done rest :=
  { h with le := fun a ha => le_trans (h.le a ha) hle }

lemma released : InStep counter c none done rest :=
  { h with own := nofun }

end

lemma advance {a : UInt32 × RpcResponse} (h : InStep counter c waiting done (a :: rest)) :
    InStep counter { c with read := c.read + (answerFrame a).length } waiting (done ++ [a]) rest where
  answers := by rw [h.answers, append_assoc, singleton_append]
  read := by simp [h.read]
  le := h.le
  own := h.own

lemma request {w : Waiting} (h : InStep counter c none done rest) (hw : w.seq.toNat = counter + 1) :
    InStep (counter + 1) { c with answers := c.answers ++ [(w.seq, w.answer)] } (some w) done
    (rest ++ [(w.seq, w.answer)])
    where
  answers := by rw [h.answers, append_assoc]
  read := h.read
  le := by
    intro a ha
    rcases mem_append.1 ha with ha | ha
    · exact le_trans (h.le a ha) (Nat.le_succ _)
    · rw [mem_singleton.1 ha]
      exact hw.le
  own := by
    rintro w' ⟨⟩ a ha heq
    rcases mem_append.1 ha with ha | ha
    · -- the numbers of earlier answers are smaller
      have := h.le a ha
      rw [heq] at this
      omega
    · rw [mem_singleton.1 ha]

lemma fresh (counter : ℕ) : InStep counter {} none [] [] where
  answers := rfl
  read := rfl
  le := by simp
  own := by simp

end InStep

namespace ThreadConns

variable {N : Type} [DecidableEq N] {t : ThreadConns N} {peer : N} {pc : PeerConn}

def PeerInStep (counter : ℕ) (pc : PeerConn) : Prop :=
  match pc.sock with
  | none => pc.waiting = none
  | some c => ∃ done rest, Rpc.InStep counter c pc.waiting done rest

structure InStep (t : ThreadConns N) : Prop where
  peers : ∀ peer, PeerInStep t.seqCounter.toNat (t.conns peer)
  agree : ∀ o ∈ t.outcomes, ∀ payload, o.returned = some payload → payload = o.answer.payload

lemma PeerInStep.mono {counter counter' : ℕ} (h : PeerInStep counter pc) (hle : counter ≤ counter') :
    PeerInStep counter' pc := by
  obtain ⟨sock, waiting⟩ := pc
  cases sock with
  | none => exact h
  | some =>
    obtain ⟨done, rest, hc⟩ := h
    exact ⟨done, rest, hc.mono hle⟩

lemma InStep.update {counter : UInt32} (h : t.InStep) (hle : t.seqCounter.toNat ≤ counter.toNat)
    (hpc : PeerInStep counter.toNat pc) : ({ t.set peer pc with seqCounter := counter } : ThreadConns N).InStep where
  peers := by
    intro p
    show PeerInStep counter.toNat (if p = peer then pc else t.conns p)
    by_cases hp : p = peer
    · rw [if_pos hp]
      exact hpc
    · rw [if_neg hp]
      exact (h.peers p).mono hle
  agree := h.agree

lemma InStep.set (h : t.InStep) (hpc : PeerInStep t.seqCounter.toNat pc) : (t.set peer pc).InStep :=
  h.update le_rfl hpc

lemma InStep.finish {sock : Option Conn} {w : Waiting} {returned : Option (List UInt8)} (h : t.InStep)
    (hsock : PeerInStep t.seqCounter.toNat { sock := sock })
    (hret : ∀ payload, returned = some payload → payload = w.answer.payload) :
    (t.finish peer sock w returned).InStep where
  peers := (show (t.set peer { sock := sock }).InStep from h.set hsock).peers
  agree := by
    intro o ho
    rcases mem_cons.1 ho with rfl | ho
    · exact hret
    · exact h.agree o ho

/-! ## Steps -/

omit [PayloadCodec] in
lemma toNat_succ_counter {counter : UInt32} (hc : counter.toNat + 1 < 2 ^ 32) :
    (counter + 1).toNat = counter.toNat + 1 := by
  exact Nat.mod_eq_of_lt hc

lemma start_inStep (h : t.InStep) (hc : t.seqCounter.toNat + 1 < 2 ^ 32) (expected : RpcType)
    (isOpen connects writes : Bool) (answer : RpcResponse) :
    (t.start peer expected isOpen connects writes answer).InStep := by
  have hnext := toNat_succ_counter hc
  unfold start
  dsimp only
  by_cases hbusy : (t.conns peer).waiting.isSome
  · rw [if_pos hbusy]
    exact h
  rw [if_neg hbusy]
  have hidle : (t.conns peer).waiting = none := by simpa using hbusy
  -- the connection that is used: the one kept, or a new one
  have huse : ∀ sock : Option Conn, sock = (if isOpen then (t.conns peer).sock else none) →
      ∃ done rest, Rpc.InStep t.seqCounter.toNat (sock.getD {}) none done rest := by
    intro sock hsock
    cases sock with
    | none => exact ⟨[], [], InStep.fresh _⟩
    | some c =>
      have hkept : (t.conns peer).sock = some c := by
        by_cases ho : isOpen
        · rw [if_pos ho] at hsock
          exact hsock.symm
        · rw [if_neg ho] at hsock
          cases hsock
      have hp := h.peers peer
      unfold PeerInStep at hp
      rw [hkept, hidle] at hp
      exact hp
  obtain ⟨done, rest, hconn⟩ := huse _ rfl
  split
  · exact h.set rfl
  · by_cases hw : writes
    · rw [if_pos hw]
      refine h.update (by omega) ⟨done, rest ++ [(t.seqCounter + 1, answer)], ?_⟩
      rw [hnext]
      exact hconn.request (w := ⟨t.seqCounter + 1, expected, answer⟩) hnext
    · rw [if_neg hw]
      exact h.update (by omega) rfl

/-- **A turn of the read loop** reads the next frame of the stream or ends the RPC. -/
theorem turn_inStep (h : t.InStep) (arriveHeader arrivePayload arriveCrc : ℕ) :
    (t.turn peer arriveHeader arrivePayload arriveCrc).InStep := by
  unfold turn
  split
  case h_2 => exact h
  case h_1 conn w hsock hwait =>
    obtain ⟨done, rest, hin⟩ : ∃ done rest, Rpc.InStep t.seqCounter.toNat conn (some w) done rest := by
      have hp := h.peers peer
      unfold PeerInStep at hp
      rw [hsock, hwait] at hp
      exact hp
    rw [hin.stream]
    cases rest with
    | nil =>
      rw [writeAll_nil, takeFrame_nil]
      exact h.finish ⟨done, [], hin.released⟩ (by simp)
    | cons a rest =>
      rw [writeAll_cons]
      rcases takeFrame_next a (writeAll answerFrame rest) arriveHeader arrivePayload arriveCrc with hf | hf | hf
      · rw [hf]
        exact h.finish ⟨done, a :: rest, hin.released⟩ (by simp)
      · rw [hf]
        exact h.finish rfl (by simp)
      · rw [hf]
        dsimp only
        have hread := hin.advance
        by_cases hseq : a.1.toNat ≠ w.seq.toNat
        · -- a late response to an earlier request
          rw [if_pos hseq]
          exact h.set ⟨done ++ [a], rest, hread⟩
        rw [if_neg hseq]
        by_cases htype : a.2.type.code ≠ w.expected.code
        · rw [if_pos htype]
          exact h.finish rfl (by simp)
        · rw [if_neg htype]
          refine h.finish ⟨done ++ [a], rest, hread.released⟩ ?_
          rintro payload ⟨⟩
          have hown : a.2 = w.answer :=
            hin.own w rfl a (by rw [hin.answers]; simp) (UInt32.toNat_inj.1 (not_not.1 hseq))
          rw [hown]

lemma step_counter (e : RpcEvent N) (hc : t.seqCounter.toNat + [e].countP RpcEvent.issues < 2 ^ 32) :
    (t.step e).seqCounter.toNat ≤ t.seqCounter.toNat + [e].countP RpcEvent.issues := by
  cases e with
  | start p expected isOpen connects writes answer =>
    have hnext : (t.seqCounter + 1).toNat = t.seqCounter.toNat + 1 := toNat_succ_counter hc
    show (t.start p expected isOpen connects writes answer).seqCounter.toNat ≤ t.seqCounter.toNat + 1
    unfold start
    dsimp only
    split_ifs
    · exact Nat.le_succ _
    all_goals
      split
      · exact Nat.le_succ _
      · exact hnext.le
  | turn p a b c =>
    show (t.turn p a b c).seqCounter.toNat ≤ t.seqCounter.toNat
    unfold turn
    split
    · split
      · exact le_rfl
      · exact le_rfl
      · split_ifs <;> exact le_rfl
    · exact le_rfl

lemma step_inStep (h : t.InStep) (e : RpcEvent N) (hc : t.seqCounter.toNat + [e].countP RpcEvent.issues < 2 ^ 32) :
    (t.step e).InStep := by
  cases e with
  | start _ expected isOpen connects writes answer => exact start_inStep h hc expected isOpen connects writes answer
  | turn _ a b c => exact turn_inStep h a b c

lemma run_inStep (es : List (RpcEvent N)) (h : t.InStep)
    (hc : t.seqCounter.toNat + es.countP RpcEvent.issues < 2 ^ 32) : (t.run es).InStep := by
  induction es generalizing t with
  | nil => exact h
  | cons e es ih =>
    have hsplit : (e :: es).countP RpcEvent.issues = [e].countP RpcEvent.issues + es.countP RpcEvent.issues := by
      rw [← countP_append, singleton_append]
    have hnow : t.seqCounter.toNat + [e].countP RpcEvent.issues < 2 ^ 32 := by omega
    have hcount := step_counter e hnow
    exact ih (step_inStep h e hnow) (by omega)

omit [DecidableEq N] in
lemma init_inStep : ({} : ThreadConns N).InStep where
  peers := fun _ => rfl
  agree := by simp

/-- **Responses are not mixed up.** -/
theorem response_matches (es : List (RpcEvent N)) (hes : es.countP RpcEvent.issues < 2 ^ 32) :
    ∀ o ∈ (({} : ThreadConns N).run es).outcomes, ∀ payload, o.returned = some payload → payload = o.answer.payload :=
  (run_inStep es init_inStep (by simpa using hes)).agree

end ThreadConns

end Threads

namespace ThreadConns

def lateResponse : List (RpcEvent Unit) :=
  [.start () .heartbeatRsp true true true (.heartbeat 1 2 true 7), .turn () 0 0 0,
    .start () .heartbeatRsp true true true (.heartbeat 1 3 false 9), .turn () 13 100 4, .turn () 13 100 4]

/-- heartbeat responses with their last index -/
instance : PayloadCodec where
  payload
    | .heartbeat _ _ _ lastLogIndex => encodeLE 8 lastLogIndex.toNat
    | rsp => [rsp.type.code]
  length_payload rsp := by cases rsp with | _ => simp

theorem response_matches_late : (({} : ThreadConns Unit).run lateResponse).outcomes.map Outcome.returned =
      [some (RpcResponse.heartbeat 1 3 false 9).payload, none] ∧
    ∀ o ∈ (({} : ThreadConns Unit).run lateResponse).outcomes, ∀ payload, o.returned = some payload →
      payload = o.answer.payload :=
  ⟨by decide +kernel, response_matches lateResponse (by decide)⟩

end ThreadConns

end MaxRedis.Rpc
