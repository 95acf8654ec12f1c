import Ndmpd.Foundation.RecordStream
import Ndmpd.Session.MessageDispatch
import Ndmpd.Session.WireFilters

/-!
# Messages on the wire

A message is a record on the stream of the control connection: a header, and behind it a
body if the handler table has an XDR function for it. `ndmp_send_request` and
`ndmp_send_response` put messages out, `ndmp_recv_msg` takes one in. What it makes of a
message depends on the bytes of that record alone, however the record is cut into
fragments and whatever became of the records before (`receiveStream_eq`); it is what the
dispatch of messages takes as given (`recvMsg_refines`). A message arrives as it was sent
(`recvMsg_sendMsg`), and one that is cut short, could not be encoded or finds no room for its
body is refused (`recvMsg_refused`).
-/

namespace Ndmpd

open Foundation

/-- An `ndmp_header`. -/
structure NdmpHeader where
  sequence : UInt64
  timeStamp : UInt64
  messageType : UInt32
  message : UInt32
  replySequence : UInt64
  error : UInt32
  deriving DecidableEq, Repr

namespace NdmpHeader

def toVal (header : NdmpHeader) : xdrNdmpHeader.Val :=
  (header.sequence, header.timeStamp, header.messageType, header.message, header.replySequence,
    header.error, ())

def ofVal (value : xdrNdmpHeader.Val) : NdmpHeader where
  sequence := value.1
  timeStamp := value.2.1
  messageType := value.2.2.1
  message := value.2.2.2.1
  replySequence := value.2.2.2.2.1
  error := value.2.2.2.2.2.1

theorem ofVal_toVal (header : NdmpHeader) : ofVal header.toVal = header := rfl

theorem toVal_ofVal (value : xdrNdmpHeader.Val) : (ofVal value).toVal = value := rfl

end NdmpHeader

/-- A body with the XDR function of its type. -/
abbrev Body := (x : Xdr) × x.Val

namespace Connection

/-- The XDR functions that `ndmp_get_handler` finds with a handler. -/
def ndmpGetXdr (connection : Connection) (message : Nat) : Option MsgXdr := do
  let _ ← ndmpGetInterface message
  let interface ← ndmpXdrTab[(message / 256) % intMaxcmd]?
  let entry ← interface[message % 256]?
  entry[max connection.connVersion 2 - 2]?

/-- A body is declared where the table has an XDR function for it. -/
theorem ndmpXdrTab_sizes :
    ndmpXdrTab.map (fun interface => interface.map fun entry => entry.map fun xdr =>
        (xdr.mhXdrRequest.isSome, xdr.mhXdrReply.isSome)) =
      ndmpMsghdlTab.map fun interface => interface.hdMsgs.map fun entry =>
        entry.hmMsgV.map fun handler => (handler.mhSizeofRequest, handler.mhSizeofReply) := by
  decide

/-- Two tables that look the same have entries at the same places. -/
theorem getElem?_of_map_eq {α β γ : Type} {f : α → γ} {g : β → γ} {as : List α} {bs : List β}
    (same : as.map f = bs.map g) {place : Nat} {b : β} (entry : bs[place]? = some b) :
    ∃ a, as[place]? = some a ∧ f a = g b := by
  have image : (as.map f)[place]? = some (g b) := by
    rw [same, List.getElem?_map, entry, Option.map_some]
  rw [List.getElem?_map] at image
  exact Option.map_eq_some_iff.mp image

theorem ndmpGetInterface_some {message : Nat} {interface : NdmpHandler}
    (found : ndmpGetInterface message = some interface) :
    ndmpMsghdlTab[(message / 256) % intMaxcmd]? = some interface := by
  obtain ⟨other, row, checked⟩ := Option.bind_eq_some_iff.mp found
  split at checked
  · cases checked
  · obtain ⟨entry, -, same⟩ := Option.bind_eq_some_iff.mp checked
    split at same <;> cases same
    exact row

/-- The XDR functions of a handler of the table. -/
theorem ndmpGetXdr_of_handler {connection : Connection} {message : Nat} {handler : MsgHandler}
    (found : connection.ndmpGetHandler message = some handler) :
    ∃ xdr, connection.ndmpGetXdr message = some xdr ∧
      xdr.mhXdrRequest.isSome = handler.mhSizeofRequest ∧
        xdr.mhXdrReply.isSome = handler.mhSizeofReply := by
  obtain ⟨interface, known, inside⟩ := Option.bind_eq_some_iff.mp found
  obtain ⟨entry, row, column⟩ := Option.bind_eq_some_iff.mp inside
  obtain ⟨interface', place, rows⟩ :=
    getElem?_of_map_eq ndmpXdrTab_sizes (ndmpGetInterface_some known)
  obtain ⟨entry', row', columns⟩ := getElem?_of_map_eq rows row
  obtain ⟨xdr, column', sizes⟩ := getElem?_of_map_eq columns column
  refine ⟨xdr, ?_, congrArg Prod.fst sizes, congrArg Prod.snd sizes⟩
  simp only [ndmpGetXdr, known, place, row', column', bind, Option.bind_some]

/-! ## Taking messages in -/

/-- What `ndmp_recv_msg` returns and leaves in the `msg_info_t`. -/
structure RecvMsg where
  connection : Connection
  code : Int
  miHdr : Option NdmpHeader
  miBody : Option Body

section Receive

variable {σ : Type} (get : Source σ)

/-- The last part of `ndmp_recv_msg`: make room for a body of the declared size and decode
it. -/
def decodeBody (connection : Connection) (header : NdmpHeader) (handler : MsgHandler)
    (declared : Bool) (xdrFunc : Option Xdr) (allocated : Bool) (stream : σ) : RecvMsg × σ :=
  if ¬ declared then (⟨connection, 0, some header, none⟩, stream)
  else
    match xdrFunc with
    | none => (⟨connection, NdmpError.notSupportedErr.code, some header, none⟩, stream)
    | some x =>
        if ¬ allocated then (⟨connection, NdmpError.noMemErr.code, some header, none⟩, stream)
        else
          match x.decode get stream with
          | (some value, stream) =>
              (⟨{ connection with connMsginfo := ⟨some handler, true⟩ }, 0, some header,
                some ⟨x, value⟩⟩, stream)
          | (none, stream) =>
              (⟨{ connection with connMsginfo := ⟨some handler, false⟩ },
                NdmpError.xdrDecodeErr.code, some header, none⟩, stream)

/-- `ndmp_recv_msg`, with the bytes of the record from any source. Whether `ndmp_malloc`
finds room for a body is not up to them. -/
def recvMsg (connection : Connection) (allocated : Bool) (stream : σ) : RecvMsg × σ :=
  match xdrNdmpHeader.decode get stream with
  | (none, stream) => (⟨connection, -1, none, none⟩, stream)
  | (some value, stream) =>
      let header := NdmpHeader.ofVal value
      let message := header.message.toNat
      match connection.ndmpGetHandler message, connection.ndmpGetXdr message with
      | some handler, some xdr =>
          let connection := { connection with connMsginfo := ⟨some handler, false⟩ }
          if header.error ≠ 0 then (⟨connection, 0, some header, none⟩, stream)
          else if header.messageType = 0 then
            if ndmpCheckAuthRequired message ∧ ¬ connection.connAuthorized then
              (⟨connection, NdmpError.notAuthorizedErr.code, some header, none⟩, stream)
            else
              connection.decodeBody get header handler handler.mhSizeofRequest xdr.mhXdrRequest
                allocated stream
          else
            connection.decodeBody get header handler handler.mhSizeofReply xdr.mhXdrReply
              allocated stream
      | _, _ =>
          (⟨{ connection with connMsginfo := ⟨none, false⟩ }, NdmpError.notSupportedErr.code,
            some header, none⟩, stream)

end Receive

/-- The message that was received, for the dispatch. -/
def RecvMsg.incoming (received : RecvMsg) (outcome : HandlerOutcome) :
    Incoming where
  isRequest := (received.miHdr.map fun header => decide (header.messageType = 0)).getD false
  message := (received.miHdr.map fun header => header.message.toNat).getD 0
  error := (received.miHdr.map fun header => header.error.toNat).getD 0
  headerDecoded := received.miHdr.isSome
  endOfFile := false
  bodyAllocated := decide (received.code ≠ NdmpError.noMemErr.code)
  bodyDecoded := decide (received.code ≠ NdmpError.xdrDecodeErr.code)
  outcome := outcome

section Refinement

variable {σ : Type} {get : Source σ} {connection : Connection} {allocated : Bool}
  {stream rest : σ}

theorem decodeBody_miHdr {header : NdmpHeader} {handler : MsgHandler} {declared : Bool}
    {xdrFunc : Option Xdr} :
    (connection.decodeBody get header handler declared xdrFunc allocated stream).1.miHdr =
      some header := by
  unfold decodeBody
  split
  · rfl
  · split
    · rfl
    · split
      · rfl
      · split <;> rfl

/-- Decoding a body is what the dispatch takes it to be. -/
theorem decodeBody_refines {header : NdmpHeader} {handler : MsgHandler} {declared : Bool}
    {xdrFunc : Option Xdr} (sizes : xdrFunc.isSome = declared) (outcome : HandlerOutcome) :
    connection.receiveBody handler declared
        ((connection.decodeBody get header handler declared xdrFunc allocated stream).1.incoming
          outcome) =
      ((connection.decodeBody get header handler declared xdrFunc allocated stream).1.connection,
        (connection.decodeBody get header handler declared xdrFunc allocated stream).1.code) := by
  cases xdrFunc with
  | none =>
      subst sizes
      rfl
  | some x =>
      subst sizes
      cases allocated with
      | false => simp [decodeBody, receiveBody, RecvMsg.incoming, NdmpError.code]
      | true =>
          cases decoded : x.decode get stream with
          | mk result rest =>
              cases result <;> simp [decodeBody, receiveBody, RecvMsg.incoming, decoded,
                NdmpError.code]

theorem recvMsg_of_header {value : xdrNdmpHeader.Val} {handler : MsgHandler} {xdr : MsgXdr}
    (decoded : xdrNdmpHeader.decode get stream = (some value, rest))
    (found : connection.ndmpGetHandler (NdmpHeader.ofVal value).message.toNat = some handler)
    (known : connection.ndmpGetXdr (NdmpHeader.ofVal value).message.toNat = some xdr) :
    connection.recvMsg get allocated stream =
      if (NdmpHeader.ofVal value).error ≠ 0 then
        (⟨{ connection with connMsginfo := ⟨some handler, false⟩ }, 0,
          some (NdmpHeader.ofVal value), none⟩, rest)
      else if (NdmpHeader.ofVal value).messageType = 0 then
        if ndmpCheckAuthRequired (NdmpHeader.ofVal value).message.toNat ∧
            ¬ connection.connAuthorized then
          (⟨{ connection with connMsginfo := ⟨some handler, false⟩ },
            NdmpError.notAuthorizedErr.code, some (NdmpHeader.ofVal value), none⟩, rest)
        else
          { connection with connMsginfo := ⟨some handler, false⟩ }.decodeBody get
            (NdmpHeader.ofVal value) handler handler.mhSizeofRequest xdr.mhXdrRequest allocated
            rest
      else
        { connection with connMsginfo := ⟨some handler, false⟩ }.decodeBody get
          (NdmpHeader.ofVal value) handler handler.mhSizeofReply xdr.mhXdrReply allocated
          rest := by
  rw [recvMsg, decoded]
  simp only [found, known]

/-- The dispatch of a message of which the header was read. -/
theorem ndmpRecvMsg_incoming {received : RecvMsg} {header : NdmpHeader} {handler : MsgHandler}
    (read : received.miHdr = some header)
    (found : connection.ndmpGetHandler header.message.toNat = some handler) {kept : Connection}
    (same : kept = { connection with connMsginfo := ⟨some handler, false⟩ })
    (outcome : HandlerOutcome) :
    connection.ndmpRecvMsg (received.incoming outcome) =
      if header.error ≠ 0 then (kept, 0)
      else if header.messageType = 0 then
        if ndmpCheckAuthRequired header.message.toNat ∧ ¬ connection.connAuthorized then
          (kept, (NdmpError.notAuthorizedErr.code : Int))
        else kept.receiveBody handler handler.mhSizeofRequest (received.incoming outcome)
      else kept.receiveBody handler handler.mhSizeofReply (received.incoming outcome) := by
  have decoded : (received.incoming outcome).headerDecoded = true := by
    rw [RecvMsg.incoming, read]
    rfl
  have message : (received.incoming outcome).message = header.message.toNat := by
    rw [RecvMsg.incoming, read]
    rfl
  have request : (received.incoming outcome).isRequest = decide (header.messageType = 0) := by
    rw [RecvMsg.incoming, read]
    rfl
  have error : (received.incoming outcome).error = NdmpError.noErr.code ↔ header.error = 0 := by
    rw [RecvMsg.incoming, read]
    exact @UInt32.toNat_inj header.error 0
  have inside : { connection with
      connEof := connection.connEof || (received.incoming outcome).endOfFile } = connection :=
    congrArg (fun connEof => { connection with connEof }) (Bool.or_false _)
  subst same
  rw [ndmpRecvMsg, inside, if_neg (not_not_intro decoded)]
  simp only [message, found, request, decide_eq_true_eq, ne_eq, error]

/-- **The dispatch takes messages as they come.** What `ndmp_recv_msg` makes of the bytes of a
message is what the dispatch of messages says of it. -/
theorem recvMsg_refines (connection : Connection) (allocated : Bool) (stream : σ)
    (outcome : HandlerOutcome) :
    connection.ndmpRecvMsg ((connection.recvMsg get allocated stream).1.incoming outcome) =
      ((connection.recvMsg get allocated stream).1.connection,
        (connection.recvMsg get allocated stream).1.code) := by
  cases decoded : xdrNdmpHeader.decode get stream with
  | mk result rest =>
      cases result with
      | none => simp [recvMsg, decoded, ndmpRecvMsg, RecvMsg.incoming]
      | some value =>
          cases found : connection.ndmpGetHandler (NdmpHeader.ofVal value).message.toNat with
          | none =>
              have result : connection.recvMsg get allocated stream =
                  (⟨{ connection with connMsginfo := ⟨none, false⟩ },
                    NdmpError.notSupportedErr.code, some (NdmpHeader.ofVal value), none⟩,
                    rest) := by
                rw [recvMsg, decoded]
                simp only [found]
              rw [result]
              simp [ndmpRecvMsg, RecvMsg.incoming, found]
          | some handler =>
              obtain ⟨xdr, known, request, reply⟩ := ndmpGetXdr_of_handler found
              rw [recvMsg_of_header decoded found known]
              generalize NdmpHeader.ofVal value = header at found
              by_cases failed : header.error ≠ 0
              · rw [if_pos failed, ndmpRecvMsg_incoming rfl found rfl, if_pos failed]
              · rw [if_neg failed]
                by_cases type : header.messageType = 0
                · rw [if_pos type]
                  split
                  · next denied =>
                      rw [ndmpRecvMsg_incoming rfl found rfl, if_neg failed, if_pos type,
                        if_pos denied]
                  · next allowed =>
                      rw [ndmpRecvMsg_incoming decodeBody_miHdr found rfl, if_neg failed,
                        if_pos type, if_neg allowed, decodeBody_refines request]
                · rw [if_neg type, ndmpRecvMsg_incoming decodeBody_miHdr found rfl, if_neg failed,
                    if_neg type, decodeBody_refines reply]

/-- The header of a message is the first thing in its record. -/
theorem recvMsg_miHdr {stream middle : σ} {value : xdrNdmpHeader.Val}
    (decoded : xdrNdmpHeader.decode get stream = (some value, middle)) :
    (connection.recvMsg get allocated stream).1.miHdr = some (NdmpHeader.ofVal value) := by
  rw [recvMsg, decoded]
  dsimp only
  split
  · split
    · rfl
    · split
      · split
        · rfl
        · exact decodeBody_miHdr
      · exact decodeBody_miHdr
  · rfl

end Refinement

/-! ## A stream of messages -/

/-- What the bytes of a message leave open: whether there is room for its body, and what its
handler finds out. -/
structure Reading where
  bodyAllocated : Bool
  outcome : HandlerOutcome
  deriving DecidableEq, Repr

/-- Read one message with the loop of `ndmp_process_messages`: go to the next record, take it
in and dispatch it. -/
def receiveRecord (connection : Connection) (stream : RecordStream) (reading : Reading) :
    Connection × RecordStream :=
  let received := { connection with connMsginfo := ⟨none, false⟩ }.recvMsg RecordStream.takeBytes
    reading.bodyAllocated stream.skipRecord.2
  (connection.ndmpProcessMessage (received.1.incoming reading.outcome), received.2)

/-- Read messages until the connection ends. -/
def receiveStream (connection : Connection) (stream : RecordStream) :
    List Reading → Connection × RecordStream
  | [] => (connection, stream)
  | reading :: others =>
      if connection.connEof then (connection, stream)
      else
        let next := connection.receiveRecord stream reading
        receiveStream next.1 next.2 others

/-- The message that the bytes of one record are. -/
def incomingOf (connection : Connection) (record : List UInt8) (reading : Reading) : Incoming :=
  ({ connection with connMsginfo := ⟨none, false⟩ }.recvMsg flat reading.bodyAllocated
    record).1.incoming reading.outcome

/-- Dispatch messages, each from a record of its own, until the connection ends. -/
def receiveRecords (connection : Connection) :
    List (List UInt8 × Reading) → Connection
  | [] => connection
  | (record, reading) :: others =>
      if connection.connEof then connection
      else (connection.ndmpProcessMessage (connection.incomingOf record reading)).receiveRecords
        others

section Stream

variable {connection : Connection} {allocated : Bool}

theorem decodeBody_within {stream : RecordStream} {after rest : List UInt8}
    (within : RecordStream.Within after stream rest) {header : NdmpHeader} {handler : MsgHandler}
    {declared : Bool} {xdrFunc : Option Xdr} :
    (connection.decodeBody RecordStream.takeBytes header handler declared xdrFunc allocated
        stream).1 =
        (connection.decodeBody flat header handler declared xdrFunc allocated rest).1 ∧
      ∃ left, RecordStream.Within after
        (connection.decodeBody RecordStream.takeBytes header handler declared xdrFunc allocated
          stream).2 left := by
  unfold decodeBody
  split
  · exact ⟨rfl, rest, within⟩
  · cases xdrFunc with
    | none => exact ⟨rfl, rest, within⟩
    | some x =>
        dsimp only
        split
        · exact ⟨rfl, rest, within⟩
        · rcases RecordStream.decode_within x within with
            ⟨value, stream', rest', first, second, behind⟩ |
              ⟨stream', rest', left, first, second, behind⟩
          · simp only [first, second]
            exact ⟨trivial, rest', behind⟩
          · simp only [first, second]
            exact ⟨trivial, left, behind⟩

/-- A message on the stream is the message of its record. -/
theorem recvMsg_within {stream : RecordStream} {after rest : List UInt8}
    (within : RecordStream.Within after stream rest) :
    (connection.recvMsg RecordStream.takeBytes allocated stream).1 =
        (connection.recvMsg flat allocated rest).1 ∧
      ∃ left, RecordStream.Within after
        (connection.recvMsg RecordStream.takeBytes allocated stream).2 left := by
  rcases RecordStream.decode_within xdrNdmpHeader within with
    ⟨value, stream', rest', first, second, behind⟩ |
      ⟨stream', rest', left, first, second, behind⟩
  · rw [recvMsg, recvMsg, first, second]
    dsimp only
    split
    · split
      · exact ⟨rfl, rest', behind⟩
      · split
        · split
          · exact ⟨rfl, rest', behind⟩
          · exact decodeBody_within behind
        · exact decodeBody_within behind
    · exact ⟨rfl, rest', behind⟩
  · rw [recvMsg, recvMsg, first, second]
    exact ⟨rfl, left, behind⟩

/-- Reading a message from the stream is dispatching the message of the next record. -/
theorem receiveRecord_within {frags : List (List UInt8)} (cut : RecordStream.Fragments frags)
    (some_ : frags ≠ []) {stream : RecordStream} {rest after : List UInt8}
    (within : RecordStream.Within (RecordStream.putRecord frags ++ after) stream rest)
    (reading : Reading) :
    (connection.receiveRecord stream reading).1 =
        connection.ndmpProcessMessage (connection.incomingOf frags.flatten reading) ∧
      ∃ left, RecordStream.Within after (connection.receiveRecord stream reading).2 left := by
  obtain ⟨same, left, behind⟩ :=
    @recvMsg_within { connection with connMsginfo := ⟨none, false⟩ } reading.bodyAllocated _ _ _
      (RecordStream.within_front cut some_ after)
  dsimp only [receiveRecord]
  rw [RecordStream.skipRecord_within within]
  exact ⟨by rw [same, incomingOf], left, behind⟩

/-- **Messages on the stream.** However the records are cut into fragments and whatever is in
them, the messages that are read from the stream are those of the records, one of each and in
order. -/
theorem receiveStream_eq (records : List (List (List UInt8) × Reading))
    (cut : ∀ record ∈ records, RecordStream.Fragments record.1 ∧ record.1 ≠ [])
    {stream : RecordStream} {rest after : List UInt8}
    (within : RecordStream.Within
      ((records.map fun record => RecordStream.putRecord record.1).flatten ++ after) stream rest) :
    (connection.receiveStream stream (records.map Prod.snd)).1 =
      connection.receiveRecords (records.map fun record => (record.1.flatten, record.2)) := by
  induction records generalizing connection stream rest with
  | nil => rfl
  | cons record records ih =>
      rw [List.map_cons, List.map_cons, receiveStream, receiveRecords]
      split
      · rfl
      · obtain ⟨legal, some_⟩ := cut record List.mem_cons_self
        rw [List.map_cons, List.flatten_cons, List.append_assoc] at within
        obtain ⟨same, left, behind⟩ :=
          @receiveRecord_within connection _ legal some_ _ _ _ within record.2
        dsimp only
        rw [← same]
        exact ih (fun record listed => cut record (List.mem_cons_of_mem _ listed)) behind

/-- The record of CONNECT_OPEN for version 4. -/
def openRecord : List UInt8 :=
  [0, 0, 0, 1, 0, 0, 0, 0, 0, 0, 0, 0, 0, 0, 9, 0, 0, 0, 0, 0, 0, 0, 0, 0, 0, 0, 0, 4]

/-- The header of CONNECT_CLOSE, which has no body. -/
def closeRecord : List UInt8 :=
  [0, 0, 0, 2, 0, 0, 0, 0, 0, 0, 0, 0, 0, 0, 9, 2, 0, 0, 0, 0, 0, 0, 0, 0]

/-- CONNECT_OPEN, cut behind its header, and CONNECT_CLOSE. -/
theorem receiveStream_eq_twoRecords :
    ((created 4).receiveStream
        (.start ([RecordStream.putRecord [openRecord.take 24, openRecord.drop 24],
          RecordStream.putRecord [closeRecord]].flatten ++ [6]))
        [⟨true, false, true, 4, false⟩, ⟨true, false, false, 0, false⟩]).1 =
      (created 4).receiveRecords
        [(openRecord, ⟨true, false, true, 4, false⟩),
          (closeRecord, ⟨true, false, false, 0, false⟩)] := by
  refine receiveStream_eq
    [([openRecord.take 24, openRecord.drop 24], ⟨true, false, true, 4, false⟩),
      ([closeRecord], ⟨true, false, false, 0, false⟩)] ?_ (RecordStream.start_within _)
  intro record listed
  rcases List.mem_cons.mp listed with rfl | later
  · exact ⟨⟨by decide, by decide, by decide, by decide, trivial⟩, by decide⟩
  · rw [List.mem_singleton.mp later]
    exact ⟨⟨by decide, by decide, trivial⟩, by decide⟩

/-- The header that the bytes of a record begin with. -/
def headerOf (record : List UInt8) : Option NdmpHeader :=
  (xdrNdmpHeader.decode flat record).1.map NdmpHeader.ofVal

theorem miHdr_eq (record : List UInt8) :
    (connection.recvMsg flat allocated record).1.miHdr = headerOf record := by
  cases decoded : xdrNdmpHeader.decode flat record with
  | mk result rest =>
      cases result with
      | none => rw [recvMsg, headerOf, decoded, Option.map_none]
      | some value => rw [recvMsg_miHdr decoded, headerOf, decoded, Option.map_some]

theorem not_skipsGate_of_clean {record : List UInt8}
    (clean : ∀ header, headerOf record = some header → header.error = 0) (reading : Reading) :
    ¬ connection.SkipsGate (connection.incomingOf record reading) := by
  rintro ⟨-, -, failed, -⟩
  rw [incomingOf, RecvMsg.incoming, miHdr_eq] at failed
  cases read : headerOf record with
  | none => simp [read, NdmpError.code] at failed
  | some header => simp [read, clean header read, NdmpError.code] at failed

/-- **No bytes on the stream open the gate**: whatever the records are, a handler that needs
an authentication or a body is called with it, as long as no header carries an error. -/
theorem receiveStream_gated (records : List (List (List UInt8) × Reading))
    (cut : ∀ record ∈ records, RecordStream.Fragments record.1 ∧ record.1 ≠ [])
    (clean : ∀ record ∈ records, ∀ header, headerOf record.1.flatten = some header →
      header.error = 0)
    (gated : ∀ call ∈ connection.calls, call.Gated)
    {stream : RecordStream} {rest after : List UInt8}
    (within : RecordStream.Within
      ((records.map fun record => RecordStream.putRecord record.1).flatten ++ after) stream rest) :
    ∀ call ∈ (connection.receiveStream stream (records.map Prod.snd)).1.calls, call.Gated := by
  induction records generalizing connection stream rest with
  | nil => exact gated
  | cons record records ih =>
      rw [List.map_cons, receiveStream]
      split
      · exact gated
      · obtain ⟨legal, some_⟩ := cut record List.mem_cons_self
        rw [List.map_cons, List.flatten_cons, List.append_assoc] at within
        obtain ⟨same, left, behind⟩ :=
          @receiveRecord_within connection _ legal some_ _ _ _ within record.2
        refine ih (fun record listed => cut record (List.mem_cons_of_mem _ listed))
          (fun record listed => clean record (List.mem_cons_of_mem _ listed)) ?_ behind
        rw [same]
        exact (ndmpProcessMessage_gated_iff gated _).mpr
          (not_skipsGate_of_clean (clean record List.mem_cons_self) _)

/-- An authentication of type 0, in two fragments, and a request for the state of the data
server. -/
def authThenState : List (List (List UInt8) × Reading) :=
  [([[0, 0, 0, 1, 0, 0, 0, 0, 0, 0, 0, 0, 0, 0, 9, 1],
      [0, 0, 0, 0, 0, 0, 0, 0, 0, 0, 0, 0]], ⟨true, true, true, 4, false⟩),
    ([[0, 0, 0, 2, 0, 0, 0, 0, 0, 0, 0, 0, 0, 0, 4, 0, 0, 0, 0, 0, 0, 0, 0, 0]],
      ⟨true, false, true, 4, false⟩)]

/-- Both of them are called. -/
theorem receiveStream_gated_authThenState :
    ∃ connection, ((created 4).receiveStream
        (.start ((authThenState.map fun record => RecordStream.putRecord record.1).flatten ++ []))
        (authThenState.map Prod.snd)).1 = connection ∧
      connection.calls.length = 2 ∧ ∀ call ∈ connection.calls, call.Gated := by
  refine ⟨_, rfl, by decide +kernel, ?_⟩
  refine receiveStream_gated authThenState ?_ ?_ ?_ (RecordStream.start_within _)
  · intro record listed
    rcases List.mem_cons.mp listed with rfl | later
    · exact ⟨⟨by decide, by decide, by decide, by decide, trivial⟩, by decide⟩
    · rw [List.mem_singleton.mp later]
      exact ⟨⟨by decide, by decide, trivial⟩, by decide⟩
  · have errors : ∀ record ∈ authThenState,
        (headerOf record.1.flatten).map NdmpHeader.error = some 0 := by decide +kernel
    intro record listed header read
    have error := errors record listed
    rw [read, Option.map_some] at error
    exact Option.some.inj error
  · intro call listed
    cases listed

end Stream

/-! ## Putting messages out -/

/-- The common part of `ndmp_send_request` and `ndmp_send_response`: the header, and the body
if the header has no error and there is an XDR function and something to send. The data is of
the type of the XDR function. -/
def sendMsg (header : NdmpHeader) (xdrFunc : Option Xdr) (data : Option Body) : Written :=
  (xdrNdmpHeader.encode header.toVal).andThen
    (if header.error = 0 ∧ xdrFunc.isSome then
      match data with
      | some body => body.1.encode body.2
      | none => .put []
    else .put [])

/-- `ndmp_send_request`, up to the wait for a reply: the header with the next sequence number,
and the record. -/
def ndmpSendRequest (connection : Connection) (connMySequence timeStamp : UInt64)
    (message error : UInt32) (requestData : Option Body) : Option (NdmpHeader × Written) := do
  let _ ← connection.ndmpGetHandler message.toNat
  let xdr ← connection.ndmpGetXdr message.toNat
  let header := {
    sequence := connMySequence + 1, timeStamp, messageType := 0, message
    replySequence := 0, error }
  some (header, sendMsg header xdr.mhXdrRequest requestData)

/-- `ndmp_send_response` to the message with a header. -/
def sendResponse (connMySequence timeStamp : UInt64) (miHdr : NdmpHeader) (miXdr : MsgXdr)
    (error : UInt32) (reply : Option Body) : NdmpHeader × Written :=
  let header := {
    sequence := connMySequence + 1, timeStamp, messageType := 1, message := miHdr.message
    replySequence := miHdr.sequence, error }
  (header, sendMsg header miXdr.mhXdrReply reply)

/-- The XDR function that `ndmp_recv_msg` comes to for the body of a message. -/
def bodyXdr (connection : Connection) (header : NdmpHeader) : Option Xdr := do
  let _ ← connection.ndmpGetHandler header.message.toNat
  let xdr ← connection.ndmpGetXdr header.message.toNat
  if header.error ≠ 0 then none
  else if header.messageType = 0 then
    if ndmpCheckAuthRequired header.message.toNat ∧ ¬ connection.connAuthorized then none
    else xdr.mhXdrRequest
  else xdr.mhXdrReply

section Arrival

variable {σ : Type} {get : Source σ} {connection : Connection} {allocated : Bool}

/-- Behind the header of a message with a body, the body is decoded. -/
theorem recvMsg_of_bodyXdr {stream middle : σ} {header : NdmpHeader} {x : Xdr}
    (decoded : xdrNdmpHeader.decode get stream = (some header.toVal, middle))
    (expected : connection.bodyXdr header = some x) :
    ∃ handler, connection.recvMsg get allocated stream =
      { connection with connMsginfo := ⟨some handler, false⟩ }.decodeBody get header handler
        true (some x) allocated middle := by
  obtain ⟨handler, found, more⟩ := Option.bind_eq_some_iff.mp expected
  obtain ⟨xdr, known, checked⟩ := Option.bind_eq_some_iff.mp more
  obtain ⟨xdr', known', request, reply⟩ := ndmpGetXdr_of_handler found
  cases known.symm.trans known'
  refine ⟨handler, ?_⟩
  rw [recvMsg_of_header decoded found known]
  rw [NdmpHeader.ofVal_toVal]
  by_cases failed : header.error ≠ 0
  · rw [if_pos failed] at checked
    cases checked
  · rw [if_neg failed] at checked ⊢
    by_cases type : header.messageType = 0
    · rw [if_pos type] at checked ⊢
      split at checked
      · cases checked
      · next allowed =>
          rw [if_neg allowed, ← request, checked]
          rfl
    · rw [if_neg type] at checked ⊢
      rw [← reply, checked]
      rfl

theorem sendMsg_bytes {header : NdmpHeader} {x : Xdr} (value : x.Val) (clean : header.error = 0) :
    sendMsg header (some x) (some ⟨x, value⟩) =
      (xdrNdmpHeader.encode header.toVal).andThen (x.encode value) := by
  rw [sendMsg, if_pos ⟨clean, rfl⟩]

theorem header_whole (header : NdmpHeader) : (xdrNdmpHeader.encode header.toVal).whole = true :=
  rfl

theorem bodyXdr_error {header : NdmpHeader} {x : Xdr}
    (expected : connection.bodyXdr header = some x) : header.error = 0 := by
  obtain ⟨handler, found, more⟩ := Option.bind_eq_some_iff.mp expected
  obtain ⟨xdr, known, checked⟩ := Option.bind_eq_some_iff.mp more
  by_contra failed
  rw [if_pos failed] at checked
  cases checked

/-- A message with the header and body that are in its record. -/
theorem recvMsg_whole {stream middle rest : σ} {header : NdmpHeader} {x : Xdr} {value : x.Val}
    (expected : connection.bodyXdr header = some x)
    (decoded : xdrNdmpHeader.decode get stream = (some header.toVal, middle))
    (inside : x.decode get middle = (some value, rest)) :
    ∃ connection', (connection.recvMsg get true stream).1 =
      ⟨connection', 0, some header, some ⟨x, value⟩⟩ := by
  obtain ⟨handler, result⟩ := @recvMsg_of_bodyXdr _ _ _ true _ _ _ _ decoded expected
  refine ⟨{ connection with connMsginfo := ⟨some handler, true⟩ }, ?_⟩
  rw [result, decodeBody, if_neg (not_not_intro rfl)]
  dsimp only
  rw [if_neg (not_not_intro rfl)]
  simp only [inside]

/-- What was read as a message was decoded from its record. -/
theorem decode_of_recvMsg {stream : σ} {header : NdmpHeader} {x : Xdr} {value : x.Val}
    {connection' : Connection} {code : Int} (expected : connection.bodyXdr header = some x)
    (result : (connection.recvMsg get allocated stream).1 =
      ⟨connection', code, some header, some ⟨x, value⟩⟩) :
    ∃ middle rest, xdrNdmpHeader.decode get stream = (some header.toVal, middle) ∧
      x.decode get middle = (some value, rest) := by
  cases decoded : xdrNdmpHeader.decode get stream with
  | mk first middle =>
      cases first with
      | none =>
          rw [recvMsg, decoded] at result
          cases result
      | some read =>
          have miHdr := @recvMsg_miHdr _ _ connection allocated _ _ _ decoded
          rw [result] at miHdr
          have same : header = NdmpHeader.ofVal read := Option.some.inj miHdr
          rw [← NdmpHeader.toVal_ofVal read, ← same] at decoded
          obtain ⟨handler, run⟩ := recvMsg_of_bodyXdr decoded expected
          rw [run, decodeBody, if_neg (not_not_intro rfl)] at result
          dsimp only at result
          split at result
          · cases result
          cases inside : x.decode get middle with
          | mk second rest =>
              cases second with
              | none =>
                  simp only [inside] at result
                  cases result
              | some found =>
                  simp only [inside] at result
                  cases result
                  exact ⟨middle, rest, by rw [same, NdmpHeader.toVal_ofVal], inside⟩

/-- A message arrives as it was sent exactly if its numbers are of 32 bits and its arrays and
unions are such as can be sent: from whatever position on the stream it is received, and
however its record is cut, with room for its body. -/
def Arrives (connection : Connection) (record : Written) (header : NdmpHeader) (body : Body) :
    Prop :=
  ∀ (frags : List (List UInt8)) (stream : RecordStream) (rest after : List UInt8),
    RecordStream.Fragments frags → frags ≠ [] → frags.flatten = record.bytes →
      RecordStream.Within (RecordStream.putRecord frags ++ after) stream rest →
        ((∃ connection', (connection.recvMsg RecordStream.takeBytes true stream.skipRecord.2).1 =
            ⟨connection', 0, some header, some body⟩) ↔
          xdrNdmpHeader.Fits header.toVal ∧ body.1.Fits body.2)

/-- **A message arrives as it was sent.** -/
theorem recvMsg_sendMsg {header : NdmpHeader} {x : Xdr}
    (expected : connection.bodyXdr header = some x) (value : x.Val) :
    connection.Arrives (sendMsg header (some x) (some ⟨x, value⟩)) header ⟨x, value⟩ := by
  intro frags stream rest after cut some_ sent within
  have clean := bodyXdr_error expected
  have front := RecordStream.skipRecord_within within
  obtain ⟨same, -⟩ :=
    @recvMsg_within connection true _ _ _ (RecordStream.within_front cut some_ after)
  rw [front]
  dsimp only
  rw [same, sent, sendMsg_bytes value clean,
    Written.andThen_of_whole (header_whole header)]
  dsimp only
  constructor
  · intro arrived
    obtain ⟨connection', result⟩ := arrived
    obtain ⟨middle, rest, decoded, inside⟩ := decode_of_recvMsg expected result
    exact ⟨Xdr.fits_of_decode _ decoded, Xdr.fits_of_decode _ inside⟩
  · intro fits
    have inside := x.decode_of_fits fits.2 []
    rw [List.append_nil] at inside
    exact recvMsg_whole expected (xdrNdmpHeader.decode_of_fits fits.1 _) inside

/-- What arrives of a header differs in its long numbers only. -/
theorem bodyXdr_received (header : NdmpHeader) :
    connection.bodyXdr (NdmpHeader.ofVal (xdrNdmpHeader.received header.toVal)) =
      connection.bodyXdr header := rfl

/-- A message whose body finds no room or cannot be decoded. -/
theorem recvMsg_part {stream middle : σ} {header : NdmpHeader} {x : Xdr}
    (expected : connection.bodyXdr header = some x)
    (decoded : xdrNdmpHeader.decode get stream = (some header.toVal, middle))
    (lacking : allocated = false ∨ (x.decode get middle).1 = none) :
    ((connection.recvMsg get allocated stream).1.code = NdmpError.noMemErr.code ∨
        (connection.recvMsg get allocated stream).1.code = NdmpError.xdrDecodeErr.code) ∧
      (connection.recvMsg get allocated stream).1.miBody = none := by
  obtain ⟨handler, result⟩ := recvMsg_of_bodyXdr decoded expected
  rw [result, decodeBody, if_neg (not_not_intro rfl)]
  dsimp only
  split
  · exact ⟨.inl rfl, rfl⟩
  · next room =>
      have refused := lacking.resolve_left (by simpa using room)
      cases inside : x.decode get middle with
      | mk result rest =>
          rw [inside] at refused
          cases refused
          exact ⟨.inr rfl, rfl⟩

/-- A message that is cut inside its header is refused. -/
theorem recvMsg_headerCut {header : NdmpHeader} {front lost : List UInt8}
    (part : front ++ lost = (xdrNdmpHeader.encode header.toVal).bytes) (short : lost ≠ []) :
    (connection.recvMsg flat allocated front).1.code = -1 ∧
      (connection.recvMsg flat allocated front).1.miBody = none := by
  have refused := xdrNdmpHeader.decode_cut part (.inl short)
  cases decoded : xdrNdmpHeader.decode flat front with
  | mk result rest =>
      rw [decoded] at refused
      cases refused
      rw [recvMsg, decoded]
      exact ⟨rfl, rfl⟩

/-- **What is cut short, could not be encoded or finds no room for its body is refused**: with
-1 if the header is not whole, else with `NDMP_NO_MEM_ERR` or `NDMP_XDR_DECODE_ERR`. -/
theorem recvMsg_refused {header : NdmpHeader} {x : Xdr}
    (expected : connection.bodyXdr header = some x) (value : x.Val) {front lost : List UInt8}
    (part : front ++ lost = (sendMsg header (some x) (some ⟨x, value⟩)).bytes)
    (short : allocated = false ∨ lost ≠ [] ∨
      (sendMsg header (some x) (some ⟨x, value⟩)).whole = false) :
    ((connection.recvMsg flat allocated front).1.code = -1 ∨
        (connection.recvMsg flat allocated front).1.code = NdmpError.noMemErr.code ∨
        (connection.recvMsg flat allocated front).1.code = NdmpError.xdrDecodeErr.code) ∧
      (connection.recvMsg flat allocated front).1.miBody = none := by
  have message := sendMsg_bytes value (bodyXdr_error expected)
  rw [Written.andThen_of_whole (header_whole header)] at message
  rw [message] at part short
  dsimp only at part short
  by_cases inHeader : front.length < (xdrNdmpHeader.encode header.toVal).bytes.length
  · -- the header is cut
    obtain ⟨missing, whole⟩ : ∃ missing, front ++ missing =
        (xdrNdmpHeader.encode header.toVal).bytes :=
      List.prefix_of_prefix_length_le ⟨lost, part⟩ ⟨_, rfl⟩ inHeader.le
    have some_ : missing ≠ [] := by
      rintro rfl
      rw [List.append_nil] at whole
      exact absurd (congrArg List.length whole) inHeader.ne
    exact (recvMsg_headerCut whole some_).imp_left .inl
  · -- the body is cut
    obtain ⟨body, rfl⟩ : (xdrNdmpHeader.encode header.toVal).bytes <+: front :=
      List.prefix_of_prefix_length_le ⟨_, rfl⟩ ⟨lost, part⟩ (Nat.not_lt.mp inHeader)
    rw [List.append_assoc] at part
    have refused := short.imp_right (x.decode_cut (List.append_cancel_left part))
    have decoded := xdrNdmpHeader.decode_encode (header_whole header) body
    rw [← NdmpHeader.toVal_ofVal (xdrNdmpHeader.received header.toVal)] at decoded
    exact (recvMsg_part ((bodyXdr_received header).trans expected) decoded refused).imp_left .inr

/-- A message that is not accepted reaches no handler. -/
theorem calls_of_refused {stream : σ}
    (refused : ({ connection with connMsginfo := ⟨none, false⟩ }.recvMsg get allocated
      stream).1.code ≠ 0)
    (outcome : HandlerOutcome) :
    (connection.ndmpProcessMessage
      (({ connection with connMsginfo := ⟨none, false⟩ }.recvMsg get allocated
        stream).1.incoming outcome)).calls = connection.calls := by
  have agree := @recvMsg_refines _ get { connection with connMsginfo := ⟨none, false⟩ } allocated
    stream outcome
  rw [ndmpProcessMessage_refused agree refused]
  exact (congrArg (fun result => result.1.calls) agree).symm.trans (ndmpRecvMsg_calls _)

/-- A message without a body is its header. -/
theorem sendMsg_headerOnly (header : NdmpHeader) :
    sendMsg header none none = xdrNdmpHeader.encode header.toVal := by
  rw [sendMsg, if_neg (by simp), Written.andThen_of_whole (header_whole header)]
  rw [Written.put, List.append_nil]
  rfl

/-- A message of the type that is expected, with a body or without one, that is cut short,
could not be encoded or finds no room for its body is refused. -/
theorem code_of_short {header : NdmpHeader} {body : Option Body}
    (expected : connection.bodyXdr header = body.map Sigma.fst) {front lost : List UInt8}
    (part : front ++ lost = (sendMsg header (body.map Sigma.fst) body).bytes)
    (short : (body.isSome = true ∧ allocated = false) ∨ lost ≠ [] ∨
      (sendMsg header (body.map Sigma.fst) body).whole = false) :
    (connection.recvMsg flat allocated front).1.code = -1 ∨
      (connection.recvMsg flat allocated front).1.code = NdmpError.noMemErr.code ∨
      (connection.recvMsg flat allocated front).1.code = NdmpError.xdrDecodeErr.code := by
  cases body with
  | none =>
      rw [Option.map_none, sendMsg_headerOnly] at part short
      rcases short with ⟨bodied, -⟩ | lacking | partial_
      · cases bodied
      · exact .inl (recvMsg_headerCut part lacking).1
      · rw [header_whole] at partial_
        cases partial_
  | some body => exact (recvMsg_refused expected body.2 part (short.imp_left And.right)).1

/-- A message, with or without a body, that is cut short, could not be encoded or finds no room
for its body reaches no handler, and the next record follows. -/
theorem receiveRecord_refused {header : NdmpHeader} {body : Option Body}
    (expected : connection.bodyXdr header = body.map Sigma.fst) {lost : List UInt8}
    {frags : List (List UInt8)} (cut : RecordStream.Fragments frags) (some_ : frags ≠ [])
    (part : frags.flatten ++ lost = (sendMsg header (body.map Sigma.fst) body).bytes)
    {reading : Reading}
    (short : (body.isSome = true ∧ reading.bodyAllocated = false) ∨ lost ≠ [] ∨
      (sendMsg header (body.map Sigma.fst) body).whole = false)
    {stream : RecordStream} {rest after : List UInt8}
    (within : RecordStream.Within (RecordStream.putRecord frags ++ after) stream rest) :
    (connection.receiveRecord stream reading).1.calls = connection.calls ∧
      ∃ left, RecordStream.Within after (connection.receiveRecord stream reading).2 left := by
  have expected : { connection with connMsginfo := ⟨none, false⟩ }.bodyXdr header =
      body.map Sigma.fst := expected
  have code := code_of_short expected part short
  obtain ⟨same, behind⟩ := @receiveRecord_within connection _ cut some_ _ _ _ within reading
  refine ⟨same ▸ calls_of_refused ?_ reading.outcome, behind⟩
  rcases code with code | code | code <;> simp [code, NdmpError.code]

/-- The header of a request for a protocol version. -/
def openHeader : NdmpHeader := ⟨1, 0, 0, 0x900, 0, 0⟩

def openRequest : Written :=
  sendMsg openHeader (some xdrNdmpConnectOpenRequestV4)
    (some ⟨xdrNdmpConnectOpenRequestV4, (4 : UInt16)⟩)

/-- A request for a version without its last byte. -/
theorem receiveRecord_refused_open :
    ((created 4).receiveRecord
        (.start (RecordStream.putRecord [openRequest.bytes.dropLast] ++ []))
        ⟨true, false, true, 4, false⟩).1.calls = [] :=
  (@receiveRecord_refused (created 4) openHeader
    (some ⟨xdrNdmpConnectOpenRequestV4, (4 : UInt16)⟩) rfl [4] [openRequest.bytes.dropLast]
    ⟨by decide, by decide, trivial⟩ (by decide) (by decide) ⟨true, false, true, 4, false⟩
    (.inr (.inl (by decide))) _ _ [] (RecordStream.start_within _)).1

end Arrival

/-! ## An exchange -/

section Exchange

variable {client server : Connection}

theorem ndmpGetHandler_of_version (same : client.connVersion = server.connVersion)
    (message : Nat) : client.ndmpGetHandler message = server.ndmpGetHandler message := by
  unfold ndmpGetHandler
  rw [same]

theorem ndmpGetXdr_of_version (same : client.connVersion = server.connVersion)
    (message : Nat) : client.ndmpGetXdr message = server.ndmpGetXdr message := by
  unfold ndmpGetXdr
  rw [same]

section Expected

variable {connection : Connection} {header : NdmpHeader} {handler : MsgHandler} {xdr : MsgXdr}

theorem bodyXdr_request
    (found : connection.ndmpGetHandler header.message.toNat = some handler)
    (known : connection.ndmpGetXdr header.message.toNat = some xdr) (clean : header.error = 0)
    (type : header.messageType = 0)
    (authorized : ndmpCheckAuthRequired header.message.toNat = true →
      connection.connAuthorized = true) :
    connection.bodyXdr header = xdr.mhXdrRequest := by
  have allowed : ¬ (ndmpCheckAuthRequired header.message.toNat = true ∧
      ¬ connection.connAuthorized = true) := fun denied => denied.2 (authorized denied.1)
  simp only [bodyXdr, found, known, bind, Option.bind_some]
  rw [if_neg (not_not_intro clean), if_pos type, if_neg allowed]

theorem bodyXdr_reply
    (found : connection.ndmpGetHandler header.message.toNat = some handler)
    (known : connection.ndmpGetXdr header.message.toNat = some xdr) (clean : header.error = 0)
    (type : header.messageType ≠ 0) : connection.bodyXdr header = xdr.mhXdrReply := by
  simp only [bodyXdr, found, known, bind, Option.bind_some]
  rw [if_neg (not_not_intro clean), if_neg type]

end Expected

/-- What `ndmp_send_request` puts out. -/
theorem ndmpSendRequest_some {connMySequence timeStamp : UInt64} {message error : UInt32}
    {data : Option Body} {header : NdmpHeader} {record : Written}
    (sent : client.ndmpSendRequest connMySequence timeStamp message error data =
      some (header, record)) :
    ∃ handler xdr, client.ndmpGetHandler message.toNat = some handler ∧
      client.ndmpGetXdr message.toNat = some xdr ∧
        header = ⟨connMySequence + 1, timeStamp, 0, message, 0, error⟩ ∧
          record = sendMsg header xdr.mhXdrRequest data := by
  obtain ⟨handler, found, more⟩ := Option.bind_eq_some_iff.mp sent
  obtain ⟨xdr, known, made⟩ := Option.bind_eq_some_iff.mp more
  cases made
  exact ⟨handler, xdr, found, known, rfl, rfl⟩

/-- **A request and its reply.** Between two connections of one version, a request whose body
is of the type in the table arrives as it was sent exactly if it fits, however its record is
cut; and so does the reply to it, with the sequence number and the message number of the
request. -/
theorem exchange_arrives (version : client.connVersion = server.connVersion)
    {connMySequence timeStamp : UInt64} {message : UInt32} {xdr : MsgXdr} {q r : Xdr}
    (known : client.ndmpGetXdr message.toNat = some xdr) (request : xdr.mhXdrRequest = some q)
    (reply : xdr.mhXdrReply = some r)
    (authorized : ndmpCheckAuthRequired message.toNat = true → server.connAuthorized = true)
    {asked : q.Val} {header : NdmpHeader} {record : Written}
    (sent : client.ndmpSendRequest connMySequence timeStamp message 0 (some ⟨q, asked⟩) =
      some (header, record)) :
    Arrives server record header ⟨q, asked⟩ ∧
      ∀ (sequence time : UInt64) (answered : r.Val),
        Arrives client (sendResponse sequence time header xdr 0 (some ⟨r, answered⟩)).2
            (sendResponse sequence time header xdr 0 (some ⟨r, answered⟩)).1 ⟨r, answered⟩ ∧
          (sendResponse sequence time header xdr 0 (some ⟨r, answered⟩)).1.replySequence =
            header.sequence ∧
          (sendResponse sequence time header xdr 0 (some ⟨r, answered⟩)).1.message =
            header.message := by
  obtain ⟨handler, xdr', found, known', rfl, rfl⟩ := ndmpSendRequest_some sent
  cases known.symm.trans known'
  refine ⟨?_, fun sequence time answered => ⟨?_, rfl, rfl⟩⟩
  · have expected : server.bodyXdr ⟨connMySequence + 1, timeStamp, 0, message, 0, 0⟩ = some q := by
      rw [ndmpGetHandler_of_version version] at found
      rw [ndmpGetXdr_of_version version] at known
      exact (@bodyXdr_request _ ⟨connMySequence + 1, timeStamp, 0, message, 0, 0⟩ _ _ found known
        rfl rfl authorized).trans request
    rw [request]
    exact recvMsg_sendMsg expected asked
  · have expected : client.bodyXdr ⟨sequence + 1, time, 1, message, connMySequence + 1, 0⟩ =
        some r := by
      exact (@bodyXdr_reply _ ⟨sequence + 1, time, 1, message, connMySequence + 1, 0⟩ _ _ found
        known rfl (show (1 : UInt32) ≠ 0 by decide)).trans reply
    dsimp only [sendResponse]
    rw [reply]
    exact recvMsg_sendMsg expected answered

/-- A request for a version and its reply. -/
theorem exchange_arrives_open :
    Arrives (created 4) openRequest openHeader ⟨xdrNdmpConnectOpenRequestV4, (4 : UInt16)⟩ :=
  (@exchange_arrives (created 4) (created 4) rfl 0 0 0x900
    (xdrHandl xdrNdmpConnectOpenRequestV4 xdrNdmpConnectOpenReplyV4) xdrNdmpConnectOpenRequestV4
    xdrNdmpConnectOpenReplyV4 rfl rfl rfl (by decide) (4 : UInt16) openHeader openRequest rfl).1

end Exchange

end Connection

end Ndmpd
