import Nomina.Dns.Transfer

/-!
# The transfer client

`axfr_transfer` of `dns/axfr.rs` reads the messages of a primary from a stream until their records end
with the closing SOA. What it looks at is the list of the records so far, so where the messages are cut
does not matter: the main result says that each way of cutting the records of a zone is read as these
records, and that nothing behind them is read.
-/

namespace Nomina

open Lib

/-! ## The stream -/

/-- What comes in from a peer: the bytes that come in time, and the error of a read that wants more of
them, which is the end of the stream, a lost connection or a timeout. -/
structure TcpStream where
  bytes : Bytes
  failure : Str

/-- `read_exact` of `n` bytes. -/
def TcpStream.readExact (s : TcpStream) (n : ℕ) : Except Str (Bytes × TcpStream) :=
  if n ≤ s.bytes.length then .ok (s.bytes.take n, { s with bytes := s.bytes.drop n })
  else .error s.failure

/-- `read_u16`. -/
def TcpStream.readU16 (s : TcpStream) : Except Str (ℕ × TcpStream) :=
  match s.readExact 2 with
  | .error e => .error e
  | .ok (b, s) => .ok (ofBeBytes b, s)

/-- The bytes of the next message, behind their length. -/
def TcpStream.readMessage (s : TcpStream) : Except Str (Bytes × TcpStream) :=
  match s.readU16 with
  | .error e => .error e
  | .ok (len, s) => s.readExact len

/-- A message behind its length, which is a word. -/
def framed (body : Bytes) : Bytes :=
  toBeBytes 2 body.length ++ body

lemma TcpStream.readExact_append {a rest : Bytes} {n : ℕ} {failure : Str} (h : a.length = n) :
    TcpStream.readExact ⟨a ++ rest, failure⟩ n = .ok (a, ⟨rest, failure⟩) := by
  have hle : n ≤ (a ++ rest).length := by
    rw [List.length_append]
    omega
  unfold TcpStream.readExact
  rw [if_pos hle, List.take_left' h, List.drop_left' h]

/-- A message that fits behind a word is read back. -/
lemma TcpStream.readMessage_framed {body rest : Bytes} {failure : Str} (h : body.length < 65536) :
    TcpStream.readMessage ⟨framed body ++ rest, failure⟩ = .ok (body, ⟨rest, failure⟩) := by
  have hlength : TcpStream.readU16 ⟨framed body ++ rest, failure⟩ =
      .ok (body.length, ⟨body ++ rest, failure⟩) := by
    unfold TcpStream.readU16 framed
    rw [List.append_assoc, TcpStream.readExact_append (length_toBeBytes 2 _)]
    dsimp only
    rw [ofBeBytes_toBeBytes_of_lt h]
  unfold TcpStream.readMessage
  rw [hlength]
  exact TcpStream.readExact_append rfl

lemma TcpStream.length_of_readExact {s s' : TcpStream} {n : ℕ} {b : Bytes}
    (h : s.readExact n = .ok (b, s')) : s'.bytes.length + n = s.bytes.length := by
  unfold TcpStream.readExact at h
  split at h
  · cases h
    rw [List.length_drop]
    omega
  · cases h

/-- A message takes two bytes at least. -/
lemma TcpStream.length_of_readMessage {s s' : TcpStream} {b : Bytes} (h : s.readMessage = .ok (b, s')) :
    s'.bytes.length < s.bytes.length := by
  unfold TcpStream.readMessage TcpStream.readU16 at h
  cases hlen : s.readExact 2 with
  | error e =>
    rw [hlen] at h
    cases h
  | ok r =>
    rw [hlen] at h
    have hword := TcpStream.length_of_readExact hlen
    have hbody := TcpStream.length_of_readExact h
    omega

/-! ## The client -/

/-- `MAX_RECORDS`. -/
def maxRecords : ℕ := 2000000

/-- Whether there is a record and it is an SOA. -/
def isSoa (r : Option Record) : Bool :=
  r.map (·.data.recordType) == some .SOA

/-- What the answers of a message come to behind the records so far: these records, and whether they
are complete. -/
def absorb (records answers : List Record) : Except Str (List Record × Bool) :=
  if records.isEmpty && !isSoa answers.head? then
    .error "AXFR did not begin with SOA (transfer refused?)"
  else if maxRecords < (records ++ answers).length then
    .error "AXFR exceeded 2000000 records"
  else
    .ok (records ++ answers, decide (2 ≤ (records ++ answers).length) && isSoa (records ++ answers).getLast?)

/-- The network side of the client: the bytes of a query for the zone, which are signed when there is a
signer, and the stream that comes back when they are sent, or an error; `Message::from_vec`, with the
answers of the message. -/
structure TransferNet where
  encode : Name → Option TSigner → Except Str Bytes
  send : SocketAddr → Bytes → Except Str TcpStream
  fromVec : Bytes → Except Str (List Record)

variable (N : TransferNet)

/-- The loop of `axfr_transfer`, with what is left of the stream. -/
def TransferNet.receiveRecords (records : List Record) (s : TcpStream) : Except Str (List Record × TcpStream) :=
  match _h : s.readMessage with
  | .error e => .error e
  | .ok (mbuf, s') =>
    match N.fromVec mbuf with
    | .error e => .error e
    | .ok answers =>
      match absorb records answers with
      | .error e => .error e
      | .ok (records, true) => .ok (records, s')
      | .ok (records, false) => receiveRecords records s'
termination_by s.bytes.length
decreasing_by exact TcpStream.length_of_readMessage _h

/-- The query of `axfr_transfer`, and the stream that comes back. -/
def TransferNet.request (primary : SocketAddr) (zone : Name) (signer : Option TSigner) : Except Str TcpStream :=
  match N.encode zone signer with
  | .error e => .error e
  | .ok buf => N.send primary (framed buf)

/-- `axfr_transfer`, with what is left of the stream. -/
def TransferNet.axfrTransfer (primary : SocketAddr) (zone : Name) (signer : Option TSigner) :
    Except Str (List Record × TcpStream) :=
  match N.request primary zone signer with
  | .error e => .error e
  | .ok stream => N.receiveRecords [] stream

section

variable {N}

variable {records answers : List Record} {body rest : Bytes} {failure : Str}

/-- After a message that does not complete the transfer, the client reads on. -/
lemma receiveRecords_next (hfits : body.length < 65536) (hbody : N.fromVec body = .ok answers)
    {records' : List Record} (habsorb : absorb records answers = .ok (records', false)) :
    N.receiveRecords records ⟨framed body ++ rest, failure⟩ =
      N.receiveRecords records' ⟨rest, failure⟩ := by
  rw [TransferNet.receiveRecords, TcpStream.readMessage_framed hfits]
  simp only [hbody, habsorb]

/-- After the message that completes the transfer, nothing more is read. -/
lemma receiveRecords_last (hfits : body.length < 65536) (hbody : N.fromVec body = .ok answers)
    {records' : List Record} (habsorb : absorb records answers = .ok (records', true)) :
    N.receiveRecords records ⟨framed body ++ rest, failure⟩ = .ok (records', ⟨rest, failure⟩) := by
  rw [TransferNet.receiveRecords, TcpStream.readMessage_framed hfits]
  simp only [hbody, habsorb]

lemma receiveRecords_error (hfits : body.length < 65536) (hbody : N.fromVec body = .ok answers)
    {e : Str} (habsorb : absorb records answers = .error e) :
    N.receiveRecords records ⟨framed body ++ rest, failure⟩ = .error e := by
  rw [TransferNet.receiveRecords, TcpStream.readMessage_framed hfits]
  simp only [hbody, habsorb]

end

/-! ## What is returned -/

/-- The records start and end with an SOA. -/
def Bracketed (records : List Record) : Prop :=
  isSoa records.head? = true ∧ isSoa records.getLast? = true

/-- The records so far start with an SOA, if there are any. -/
lemma absorb_opened {records answers records' : List Record} {complete : Bool}
    (h : absorb records answers = .ok (records', complete))
    (hopened : records ≠ [] → isSoa records.head? = true) :
    isSoa records'.head? = true ∧ (complete = true → isSoa records'.getLast? = true) := by
  unfold absorb at h
  split at h
  · cases h
  · rename_i hopening
    split at h
    · cases h
    · cases h
      refine ⟨?_, fun hcomplete => (Bool.and_eq_true_iff.mp hcomplete).2⟩
      cases records with
      | nil => simpa using hopening
      | cons r records => exact hopened (List.cons_ne_nil r records)

/-- The client returns only what starts and ends with an SOA. -/
lemma bracketed_of_receiveRecords {records records' : List Record} {s s' : TcpStream}
    (h : N.receiveRecords records s = .ok (records', s'))
    (hopened : records ≠ [] → isSoa records.head? = true) : Bracketed records' := by
  fun_induction TransferNet.receiveRecords N records s with
  | case1 => cases h
  | case2 => cases h
  | case3 => cases h
  | case4 records s mbuf s₁ hmessage answers hbody records₁ habsorb =>
    cases h
    obtain ⟨hhead, hlast⟩ := absorb_opened habsorb hopened
    exact ⟨hhead, hlast rfl⟩
  | case5 records s mbuf s₁ hmessage answers hbody records₁ habsorb ih =>
    exact ih h fun _ => (absorb_opened habsorb hopened).1

/-! ## The records of a zone -/

/-- The records of a zone as they are transferred: between two SOAs there are other records, and there
are not too many. -/
structure IsTransfer (records : List Record) : Prop where
  bracketed : ∃ opening between closing, records = opening :: between ++ [closing] ∧
    isSoa (some opening) = true ∧ isSoa (some closing) = true ∧ ∀ r ∈ between, isSoa (some r) = false
  bounded : records.length ≤ maxRecords

/-- A message, as its bytes and its answers. -/
structure IsMessage (N : TransferNet) (m : Bytes × List Record) : Prop where
  fits : m.1.length < 65536
  parses : N.fromVec m.1 = .ok m.2

variable {N}

/-- A first part of the records of a zone ends with an SOA that is not the opening one exactly when it is
all of them. -/
lemma complete_part {front more : List Record} (h : IsTransfer (front ++ more)) (hfront : front ≠ []) :
    (decide (2 ≤ front.length) && isSoa front.getLast?) = more.isEmpty := by
  obtain ⟨opening, between, closing, hall, -, hclosing, hbetween⟩ := h.bracketed
  obtain ⟨first, inner, rfl⟩ := List.exists_cons_of_ne_nil hfront
  obtain ⟨rfl, htail⟩ := List.cons_eq_cons.mp hall
  change inner ++ more = between ++ [closing] at htail
  by_cases hmore : more = []
  · subst hmore
    rw [List.append_nil] at htail
    subst htail
    simpa [List.getLast?_cons] using hclosing
  · have hinner : inner <+: between := by
      have hdrop := congrArg List.dropLast htail
      rw [List.dropLast_append_of_ne_nil hmore, List.dropLast_concat] at hdrop
      exact ⟨_, hdrop⟩
    rw [List.isEmpty_eq_false_iff.mpr hmore, Bool.and_eq_false_iff]
    by_cases hnil : inner = []
    · left
      simp [hnil]
    · right
      rw [List.getLast?_cons_of_ne_nil hnil, List.getLast?_eq_some_getLast hnil]
      exact hbetween _ (hinner.subset (List.getLast_mem hnil))

/-- The records of a zone are not complete before the last of them. -/
lemma absorb_part {records answers more : List Record} (h : IsTransfer (records ++ answers ++ more))
    (hanswers : answers ≠ []) : absorb records answers = .ok (records ++ answers, more.isEmpty) := by
  have hopens : (records.isEmpty && !isSoa answers.head?) = false := by
    cases records with
    | cons r records => rfl
    | nil =>
      obtain ⟨opening, between, closing, hall, hopening, -, -⟩ := h.bracketed
      obtain ⟨first, rest, rfl⟩ := List.exists_cons_of_ne_nil hanswers
      obtain ⟨rfl, -⟩ := List.cons_eq_cons.mp hall
      simp [hopening]
  have hbounded : ¬maxRecords < (records ++ answers).length := by
    have hall := h.bounded
    rw [List.length_append] at hall
    omega
  unfold absorb
  rw [hopens, if_neg Bool.false_ne_true, if_neg hbounded, complete_part h (by simp [hanswers])]

/-- Messages that continue the records of a zone are read to the end of these records. -/
lemma receiveRecords_messages {messages : List (Bytes × List Record)} {records : List Record}
    (hmessages : ∀ m ∈ messages, IsMessage N m ∧ m.2 ≠ []) (hsome : messages ≠ [])
    (h : IsTransfer (records ++ messages.flatMap Prod.snd)) (rest : Bytes) (failure : Str) :
    N.receiveRecords records ⟨messages.flatMap (fun m => framed m.1) ++ rest, failure⟩ =
      .ok (records ++ messages.flatMap Prod.snd, ⟨rest, failure⟩) := by
  induction messages generalizing records with
  | nil => exact absurd rfl hsome
  | cons m messages ih =>
    obtain ⟨⟨hfits, hparses⟩, hne⟩ := hmessages m List.mem_cons_self
    rw [List.flatMap_cons, ← List.append_assoc] at h
    rw [List.flatMap_cons, List.flatMap_cons, List.append_assoc, ← List.append_assoc records]
    have habsorb := absorb_part h hne
    by_cases hmore : messages = []
    · subst hmore
      rw [receiveRecords_last hfits hparses habsorb]
      simp
    · have hrest : messages.flatMap Prod.snd ≠ [] := by
        obtain ⟨m', hm'⟩ := List.exists_mem_of_ne_nil messages hmore
        intro hnil
        exact (hmessages m' (List.mem_cons_of_mem m hm')).2 (List.flatMap_eq_nil_iff.mp hnil m' hm')
      rw [List.isEmpty_eq_false_iff.mpr hrest] at habsorb
      rw [receiveRecords_next hfits hparses habsorb]
      exact ih (fun m' hm' => hmessages m' (List.mem_cons_of_mem m hm')) hmore h

/-- A message that does not start with an SOA ends the transfer with an error. -/
lemma receiveRecords_refused {body rest : Bytes} {answers : List Record} {failure : Str}
    (hmessage : IsMessage N (body, answers)) (h : isSoa answers.head? = false) :
    ∃ e, N.receiveRecords [] ⟨framed body ++ rest, failure⟩ = .error e := by
  have habsorb : absorb [] answers = .error "AXFR did not begin with SOA (transfer refused?)" := by
    unfold absorb
    rw [h]
    rfl
  exact ⟨_, receiveRecords_error hmessage.fits hmessage.parses habsorb⟩

/-- Nothing is transferred when nothing comes. -/
lemma receiveRecords_nil (failure : Str) : N.receiveRecords [] ⟨[], failure⟩ = .error failure := by
  rw [TransferNet.receiveRecords]
  rfl

lemma axfrTransfer_eq {primary : SocketAddr} {zone : Name} {signer : Option TSigner} {stream : TcpStream}
    (h : N.request primary zone signer = .ok stream) :
    N.axfrTransfer primary zone signer = N.receiveRecords [] stream := by
  unfold TransferNet.axfrTransfer
  rw [h]

/-- The client returns the records of a zone however they are cut into messages, and reads the messages
to their end. It fails when the first message does not start with an SOA, or when there is none. What it
returns starts and ends with an SOA. -/
theorem axfrTransfer_spec (N : TransferNet) (primary : SocketAddr) (zone : Name) (signer : Option TSigner) :
    (∀ (messages : List (Bytes × List Record)) (rest : Bytes) (failure : Str),
        N.request primary zone signer =
          .ok ⟨messages.flatMap (fun m => framed m.1) ++ rest, failure⟩ →
        (∀ m ∈ messages, IsMessage N m ∧ m.2 ≠ []) → IsTransfer (messages.flatMap Prod.snd) →
        N.axfrTransfer primary zone signer = .ok (messages.flatMap Prod.snd, ⟨rest, failure⟩)) ∧
      (∀ (messages : List (Bytes × List Record)) (failure : Str),
        N.request primary zone signer = .ok ⟨messages.flatMap (fun m => framed m.1), failure⟩ →
        (∀ m ∈ messages, IsMessage N m) → isSoa (messages.head?.bind fun m => m.2.head?) = false →
        ∃ e, N.axfrTransfer primary zone signer = .error e) ∧
      ∀ records s, N.axfrTransfer primary zone signer = .ok (records, s) → Bracketed records := by
  refine ⟨fun messages rest failure hstream hmessages htransfer => ?_,
    fun messages failure hstream hmessages hfirst => ?_, fun records s h => ?_⟩
  · have hsome : messages ≠ [] := by
      rintro rfl
      obtain ⟨opening, between, closing, hall, -⟩ := htransfer.bracketed
      simp at hall
    rw [axfrTransfer_eq hstream]
    exact receiveRecords_messages hmessages hsome htransfer rest failure
  · rw [axfrTransfer_eq hstream]
    cases messages with
    | nil => exact ⟨failure, receiveRecords_nil failure⟩
    | cons m messages => exact receiveRecords_refused (hmessages m List.mem_cons_self) hfirst
  · unfold TransferNet.axfrTransfer at h
    split at h
    · cases h
    · exact bracketed_of_receiveRecords N h fun hne => absurd rfl hne

/-! ## A zone in three messages -/

/-- The SOA of a zone. -/
def bracketSoa : Record :=
  ⟨.ofPlain "lan", 3600, .soa ⟨.ofPlain "ns.lan", .ofPlain "admin.lan", 7, 3600, 600, 86400, 300⟩⟩

/-- The address of a host of the zone. -/
def bracketedHost (n : ℕ) : Record :=
  ⟨.ofPlain "nas.lan", 300, .a (BitVec.ofNat 32 n)⟩

/-- Messages with the opening SOA alone, with one address, and with another one and the closing SOA. -/
def cutAnswers : Bytes → Except Str (List Record)
  | [1] => .ok [bracketSoa]
  | [2] => .ok [bracketedHost 1]
  | [3] => .ok [bracketedHost 2, bracketSoa]
  | _ => .error "unexpected end of input"

/-- A primary that sends the bytes and then nothing. -/
def cutNet (bytes : Bytes) : TransferNet :=
  ⟨fun _ _ => .ok [], fun _ _ => .ok ⟨bytes, "early eof"⟩, cutAnswers⟩

/-- The zone in three messages is read, and nothing behind it. A transfer that starts with the second
message is refused. -/
theorem axfrTransfer_cut :
    (cutNet [0, 1, 1, 0, 1, 2, 0, 1, 3, 0, 9]).axfrTransfer ⟨.v4 1, 53, 0⟩ (.ofPlain "lan") none =
        .ok ([bracketSoa, bracketedHost 1, bracketedHost 2, bracketSoa], ⟨[0, 9], "early eof"⟩) ∧
      (∃ e, (cutNet [0, 1, 2]).axfrTransfer ⟨.v4 1, 53, 0⟩ (.ofPlain "lan") none = .error e) ∧
      Bracketed [bracketSoa, bracketedHost 1, bracketedHost 2, bracketSoa] := by
  have hread : (cutNet [0, 1, 1, 0, 1, 2, 0, 1, 3, 0, 9]).axfrTransfer ⟨.v4 1, 53, 0⟩ (.ofPlain "lan") none =
      .ok ([bracketSoa, bracketedHost 1, bracketedHost 2, bracketSoa], ⟨[0, 9], "early eof"⟩) :=
    (axfrTransfer_spec (cutNet [0, 1, 1, 0, 1, 2, 0, 1, 3, 0, 9]) ⟨.v4 1, 53, 0⟩ (.ofPlain "lan") none).1
      [([1], [bracketSoa]), ([2], [bracketedHost 1]), ([3], [bracketedHost 2, bracketSoa])] [0, 9] "early eof"
      rfl (by
        simp only [List.mem_cons, List.not_mem_nil, or_false, forall_eq_or_imp, forall_eq]
        exact ⟨⟨⟨by decide, rfl⟩, by decide⟩, ⟨⟨by decide, rfl⟩, by decide⟩, ⟨by decide, rfl⟩, by decide⟩)
      ⟨⟨bracketSoa, [bracketedHost 1, bracketedHost 2], bracketSoa, rfl, by decide, by decide, by decide⟩,
        by decide⟩
  refine ⟨hread, ?_, ?_⟩
  · exact (axfrTransfer_spec (cutNet [0, 1, 2]) ⟨.v4 1, 53, 0⟩ (.ofPlain "lan") none).2.1
      [([2], [bracketedHost 1])] "early eof" rfl (by
        simp only [List.mem_singleton, forall_eq]
        exact ⟨by decide, rfl⟩) (by decide)
  · exact (axfrTransfer_spec _ _ _ _).2.2 _ _ hread

end Nomina
