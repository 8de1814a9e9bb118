/-
  THE TCP PASSTHROUGH (`stream/tcp.rs`): peek the ClientHello, replay it, relay the rest.

  `peekSni` takes the bytes it looks at off the socket, so they have to be replayed to the
  upstream.  It reads up to 4096 bytes at a time and keeps at most `maxClientHello` of them: when a
  read straddles that cap, the part of it above the cap is neither kept nor on the socket any more.

  A connection is the list of its reads, in order: any way the segments of the client's stream
  arrive is such a list.
-/
import Featherbit.Stream.Overrun

namespace Featherbit

/-- Cap on how much of a ClientHello is buffered while looking for the SNI. -/
def maxClientHello : Nat := 8 * 1024

/-- What one `client.read(&mut tmp)` delivers: some bytes, and no more than `tmp` holds. -/
structure Chunk where
  bytes : Bytes
  nonempty : bytes ≠ []
  fits : bytes.length ≤ 4096

/-- What the read after the last chunk comes to: `Ok(0)`, an error, or the deadline. -/
inductive ReadEnd where
  | eof
  | failed
  | elapsed

/-- A client connection, as reading it goes. -/
structure Socket where
  /-- what the reads in time deliver -/
  chunks : List Chunk
  /-- how reading on ends -/
  ending : ReadEnd
  /-- what the client sends after that -/
  later : Bytes

/-- The bytes of some reads. -/
def received (chunks : List Chunk) : Bytes := chunks.flatMap Chunk.bytes

/-- The bytes still unread on the socket. -/
def Socket.unread (client : Socket) : Bytes := received client.chunks ++ client.later

/-- The loop of `peek_sni`, from `buf` on: the host name, the bytes kept, and the reads that were
    not made. -/
def peekLoop (ending : ReadEnd) : List Chunk → Bytes → Option String × Bytes × List Chunk
  | chunks, buf =>
    match extractSni buf with
    | .found host => (some host, buf, chunks)
    | .notPresent => (none, buf, chunks)
    | .incomplete =>
      if buf.length ≥ maxClientHello then (none, buf, chunks)
      else
        match chunks with
        | chunk :: chunks =>
          let take := min chunk.bytes.length (maxClientHello - buf.length)
          peekLoop ending chunks (buf ++ chunk.bytes.take take)
        | [] =>
          match ending with
          | .eof | .failed | .elapsed => (none, buf, [])

/-- `peek_sni`: the host name, the bytes consumed, and the socket after it. -/
def peekSni (client : Socket) : Option String × Bytes × Socket :=
  let (sni, buf, chunks) := peekLoop client.ending client.chunks []
  (sni, buf, { client with chunks := chunks })

variable {β : Type}

/-- The task of one connection, up to the upstream: its pool, `prebuffer`, and the socket. -/
def acceptClient (router : SniRouter β) (client : Socket) : β × Bytes × Socket :=
  if router.hasSniRoutes then
    let (sni, buf, client) := peekSni client
    (router.select sni, buf, client)
  else (router.select none, [], client)

/-- What an upstream that accepts the connection and every byte is sent: the replay, then the
    relay. -/
def upstreamReceives (router : SniRouter β) (client : Socket) : Bytes :=
  let (_, prebuffer, client) := acceptClient router client
  prebuffer ++ client.unread

/-! ## The read that straddles the cap -/

/-- A read that is made from `buf` on (the bytes before it are answered `incomplete` after each
    read, and are below the cap) delivers bytes on both sides of the cap. -/
def Straddles (chunks : List Chunk) (buf : Bytes) : Prop :=
  ∃ pre chunk post, chunks = pre ++ chunk :: post ∧
    (∀ front, front <+: pre → extractSni (buf ++ received front) = .incomplete) ∧
    (buf ++ received pre).length < maxClientHello ∧
    maxClientHello < (buf ++ received pre).length + chunk.bytes.length

section Loop

variable {ending : ReadEnd} {chunk : Chunk} {chunks : List Chunk} {buf : Bytes}

@[simp] theorem received_nil : received [] = [] := rfl

theorem received_cons : received (chunk :: chunks) = chunk.bytes ++ received chunks :=
  List.flatMap_cons

theorem not_straddles_of_answered (h : extractSni buf ≠ .incomplete) : ¬ Straddles chunks buf := by
  rintro ⟨pre, chunk, post, -, hfront, -, -⟩
  have hbuf := hfront [] List.nil_prefix
  rw [received_nil, List.append_nil] at hbuf
  exact h hbuf

theorem not_straddles_of_full (h : maxClientHello ≤ buf.length) : ¬ Straddles chunks buf := by
  rintro ⟨pre, chunk, post, -, -, hlt, -⟩
  rw [List.length_append] at hlt
  omega

/-- The first read straddles, or a later one does. -/
theorem straddles_cons (hinc : extractSni buf = .incomplete) (hlt : buf.length < maxClientHello) :
    Straddles (chunk :: chunks) buf ↔
      maxClientHello < buf.length + chunk.bytes.length ∨ Straddles chunks (buf ++ chunk.bytes) := by
  constructor
  · rintro ⟨pre, c, post, heq, hfront, hbelow, habove⟩
    cases pre with
    | nil =>
      obtain ⟨rfl, rfl⟩ := List.cons.inj heq
      rw [received_nil, List.append_nil] at habove
      exact .inl habove
    | cons d pre =>
      obtain ⟨rfl, rfl⟩ := List.cons.inj heq
      rw [received_cons, ← List.append_assoc] at hbelow habove
      refine .inr ⟨pre, c, post, rfl, fun front hpre => ?_, hbelow, habove⟩
      have hinc' := hfront (chunk :: front) (List.cons_prefix_cons.mpr ⟨rfl, hpre⟩)
      rwa [received_cons, ← List.append_assoc] at hinc'
  · rintro (habove | ⟨pre, c, post, rfl, hfront, hbelow, habove⟩)
    · refine ⟨[], chunk, chunks, rfl, fun front hpre => ?_, ?_, ?_⟩
      · rw [List.prefix_nil.mp hpre, received_nil, List.append_nil, hinc]
      · rwa [received_nil, List.append_nil]
      · rwa [received_nil, List.append_nil]
    · refine ⟨chunk :: pre, c, post, rfl, fun front hpre => ?_, ?_, ?_⟩
      · cases front with
        | nil => rw [received_nil, List.append_nil, hinc]
        | cons d front =>
          obtain ⟨rfl, hpre'⟩ := List.cons_prefix_cons.mp hpre
          rw [received_cons, ← List.append_assoc]
          exact hfront front hpre'
      · rwa [received_cons, ← List.append_assoc]
      · rwa [received_cons, ← List.append_assoc]

/-- With the cap reached, no read is made. -/
theorem peekLoop_full (h : maxClientHello ≤ buf.length) :
    (peekLoop ending chunks buf).2 = (buf, chunks) := by
  unfold peekLoop
  split
  · rfl
  · rfl
  · rw [if_pos h]

/-- The bytes kept and the bytes not read are the stream iff no read straddles the cap. -/
theorem peekLoop_exact_iff :
    (peekLoop ending chunks buf).2.1 ++ received (peekLoop ending chunks buf).2.2 =
      buf ++ received chunks ↔ ¬ Straddles chunks buf := by
  induction chunks generalizing buf with
  | nil =>
    have hnone : ¬ Straddles [] buf := by
      rintro ⟨pre, c, post, heq, -⟩
      exact absurd heq.symm (by simp)
    have hsame : (peekLoop ending [] buf).2 = (buf, []) := by
      unfold peekLoop
      cases extractSni buf with
      | found | notPresent => rfl
      | incomplete => cases ending <;> dsimp only <;> split <;> rfl
    rw [hsame]
    exact iff_of_true rfl hnone
  | cons chunk chunks ih =>
    by_cases hinc : extractSni buf = .incomplete
    · by_cases hlt : buf.length < maxClientHello
      · rw [peekLoop, hinc]
        dsimp only
        rw [if_neg (by omega), straddles_cons hinc hlt, received_cons, ← List.append_assoc]
        by_cases hfit : buf.length + chunk.bytes.length ≤ maxClientHello
        · -- the whole read is kept
          rw [Nat.min_eq_left (by omega), List.take_length, ih]
          constructor
          · rintro h (habove | hlater)
            · omega
            · exact h hlater
          · exact fun h hlater => h (.inr hlater)
        · -- the cap is reached, and the rest of the read is lost
          have hkept : (buf ++ chunk.bytes.take (maxClientHello - buf.length)).length =
              maxClientHello := by
            rw [List.length_append, List.length_take]
            omega
          rw [Nat.min_eq_right (by omega), peekLoop_full (by omega)]
          refine iff_of_false (fun heq => ?_) (fun h => h (.inl (by omega)))
          have hlen := congrArg List.length heq
          simp only [List.length_append] at hlen hkept
          omega
      · rw [peekLoop_full (by omega)]
        exact iff_of_true rfl (not_straddles_of_full (by omega))
    · -- the answer is known, and nothing more is read
      have hstop : (peekLoop ending (chunk :: chunks) buf).2 = (buf, chunk :: chunks) := by
        rw [peekLoop]
        cases hanswer : extractSni buf with
        | found | notPresent => rfl
        | incomplete => exact absurd hanswer hinc
      rw [hstop]
      exact iff_of_true rfl (not_straddles_of_answered hinc)

end Loop

section Exact

variable (client : Socket)

theorem peekSni_exact_iff :
    (peekSni client).2.1 ++ (peekSni client).2.2.unread = client.unread ↔
      ¬ Straddles client.chunks [] := by
  refine Iff.trans ?_ (@peekLoop_exact_iff client.ending client.chunks [])
  simp only [peekSni, Socket.unread]
  rw [← List.append_assoc, List.append_left_inj, List.nil_append]

/-- **When the passthrough is byte-exact.**  What `peek_sni` returns and what it leaves on the
    socket are the client's stream iff no read it makes straddles the cap; and the upstream is
    sent that stream iff, where the router has SNI routes, no such read is made. -/
theorem passthrough_exact_iff (router : SniRouter β) :
    ((peekSni client).2.1 ++ (peekSni client).2.2.unread = client.unread ↔
      ¬ Straddles client.chunks []) ∧
    (upstreamReceives router client = client.unread ↔
      (router.hasSniRoutes = true → ¬ Straddles client.chunks [])) := by
  refine ⟨peekSni_exact_iff client, ?_⟩
  unfold upstreamReceives acceptClient
  cases hroutes : router.hasSniRoutes with
  | false => exact iff_of_true rfl nofun
  | true =>
    refine (peekSni_exact_iff client).trans ?_
    exact ⟨fun h _ => h, fun h => h rfl⟩

end Exact

/-! ## A hello that is cut -/

/-- The start of a ClientHello: up to the header of a padding extension of 9000 bytes. -/
def longHello : Bytes :=
  [0x16, 0x03, 0x01, 0x23, 0x5b, 0x01, 0x00, 0x23, 0x57, 0x03, 0x03] ++ List.replicate 32 0x00 ++
    [0x00, 0x00, 0x02, 0x00, 0x2f, 0x01, 0x00, 0x23, 0x2c, 0x00, 0x15, 0x23, 0x28]

/-- The answer is `incomplete` as long as the padding has not been received. -/
theorem longHello_incomplete (fill : Bytes) (h : fill.length < 9000) :
    extractSni (longHello ++ fill) = .incomplete := by
  have hlen : longHello.length = 56 := rfl
  have hgrow : (longHello ++ fill).length = 56 + fill.length := by rw [List.length_append, hlen]
  have hdecl : Declares longHello 9056 :=
    ⟨rfl, rfl, rfl, 9051, 9047, by decide, by decide, by decide, by decide, by decide⟩
  have hhs : handshakeEnd (longHello ++ fill) = .ok (56 + fill.length) :=
    handshakeEnd_eq_ok.mpr ⟨9056, hdecl.append fill, by omega⟩
  have hskip : skipFields longHello 56 = some 50 := by decide
  refine (extractSni_eq_incomplete hhs (by omega)).mpr (.inr ⟨50, ?_, by omega, .inr ?_⟩)
  · exact skipFields_append fill hskip (by omega)
  · have hread : ∀ p, p + 2 ≤ 56 → be16 (longHello ++ fill) p = be16 longHello p :=
      fun p hp => be16_append fill (hp.trans_eq hlen.symm)
    refine ⟨9004, 52, ?_, .refl, 0x0015, 9000, by omega, ?_, ?_, .inl (by omega)⟩
    · rw [hread 50 (by omega)]
      decide
    · rw [hread 52 (by omega)]
      decide
    · rw [hread (52 + 2) (by omega)]
      decide

/-- A read of `n` bytes of padding. -/
def paddingRead (n : Nat) (h : 0 < n ∧ n ≤ 4096) : Chunk where
  bytes := List.replicate n 0x00
  nonempty := by
    rw [ne_eq, List.replicate_eq_nil_iff]
    omega
  fits := by
    rw [List.length_replicate]
    exact h.2

/-- The first reads of a client: they end one byte below the cap. -/
def earlyReads : List Chunk := [paddingRead 4039 (by omega), paddingRead 4096 (by omega)]

/-- The next read straddles the cap. -/
def straddlingClient : Socket where
  chunks := ⟨longHello, by decide, by decide⟩ :: earlyReads ++ [paddingRead 865 (by omega)]
  ending := .eof
  later := []

theorem straddlingClient_loses_bytes :
    (peekSni straddlingClient).2.1 ++ (peekSni straddlingClient).2.2.unread ≠
      straddlingClient.unread := by
  intro heq
  refine (peekSni_exact_iff straddlingClient).mp heq ?_
  have hearly : (received earlyReads).length = 8135 := by
    simp only [earlyReads, paddingRead, received, List.flatMap_cons, List.flatMap_nil,
      List.length_append, List.length_replicate, List.length_nil]
  refine ⟨⟨longHello, by decide, by decide⟩ :: earlyReads, paddingRead 865 (by omega), [], rfl,
    fun front hfront => ?_, ?_, ?_⟩
  · cases front with
    | nil => rfl
    | cons chunk front =>
      obtain ⟨rfl, post, hpost⟩ := List.cons_prefix_cons.mp hfront
      have hsplit := congrArg (fun chunks => (received chunks).length) hpost
      simp only [received, List.flatMap_append, List.length_append] at hsplit hearly
      rw [List.nil_append, received_cons]
      exact longHello_incomplete _ (by rw [received]; omega)
  · rw [List.nil_append, received_cons, List.length_append, hearly]
    decide
  · rw [List.nil_append, received_cons, List.length_append, hearly]
    simp only [paddingRead, List.length_replicate]
    decide

end Featherbit
