/-!
# The message handler table

One entry for each interface of the protocol, indexed by the high byte of a message
number; in it one entry for each message, indexed by the low byte, with a handler for
each of the protocol versions 2, 3 and 4. A handler names its function and says
whether requests and replies have a body, that is, an XDR function and a non-zero size.
-/

namespace Ndmpd

/-- The request handler functions of the table. -/
inductive HandlerFunc where
  | configGetHostInfoV3
  | configGetConnectionTypeV3
  | configGetAuthAttrV3
  | configGetButypeInfoV3
  | configGetButypeInfoV4
  | configGetFsInfoV3
  | configGetTapeInfoV3
  | configGetScsiInfoV3
  | configGetServerInfoV3
  | configSetExtListV4
  | configGetExtListV4
  | dataGetStateV3
  | dataGetStateV4
  | dataStartBackupV3
  | dataStartRecoverV3
  | dataAbortV3
  | dataGetEnvV3
  | dataGetEnvV4
  | dataStopV3
  | dataListenV3
  | dataListenV4
  | dataConnectV3
  | dataConnectV4
  | dataStartRecoverFilehistV4
  | connectOpenV3
  | connectClientAuthV3
  | connectCloseV3
  | connectServerAuthV3
  deriving DecidableEq, Repr

/-- An `ndmp_msg_handler_t`. A body that is declared has both an XDR function and a
non-zero size. -/
structure MsgHandler where
  mhFunc : Option HandlerFunc
  mhSizeofRequest : Bool
  mhSizeofReply : Bool
  deriving DecidableEq, Repr

/-- `HANDL`: a handler function, a request body and a reply body. -/
def handl (func : HandlerFunc) : MsgHandler := ⟨some func, true, true⟩

/-- `HANDL_RQ`: a request body only. -/
def handlRq : MsgHandler := ⟨none, true, false⟩

/-- `HANDL_RS`: a handler function and a reply body. -/
def handlRs (func : HandlerFunc) : MsgHandler := ⟨some func, false, true⟩

/-- `HANDL_NONE`: a handler function only. -/
def handlNone (func : HandlerFunc) : MsgHandler := ⟨some func, false, false⟩

/-- `HANDL_NULL`: no handler for this entry. -/
def handlNull : MsgHandler := ⟨none, false, false⟩

/-- An entry of `hd_msgs`: the message number, whether it needs an authenticated
connection, and the handlers of the protocol versions. -/
structure HdMessage where
  hmMessage : Nat
  hmAuthRequired : Bool
  hmMsgV : List MsgHandler
  deriving DecidableEq, Repr

/-- An `ndmp_handler_t`: how many entries of `hd_msgs` are in use, and the entries. -/
structure NdmpHandler where
  hdCnt : Nat
  hdMsgs : List HdMessage
  deriving DecidableEq, Repr

/-- `INT_MAXCMD`. -/
def intMaxcmd : Nat := 12

/-- `ndmp_msghdl_tab`. It has one interface fewer than `INT_MAXCMD`. -/
def ndmpMsghdlTab : List NdmpHandler := [
    -- NONE - 0x000
    ⟨0, [
      ⟨0x000, false, [handlNull, handlNull, handlNull]⟩]⟩,
    -- CONFIG - 0x100
    ⟨11, [
      ⟨0x100, true, [handlNull, handlRs .configGetHostInfoV3, handlRs .configGetHostInfoV3]⟩,
      ⟨0x101, false, [handlNull, handlNull, handlNull]⟩,
      ⟨0x102, true,
        [handlNull, handlRs .configGetConnectionTypeV3, handlRs .configGetConnectionTypeV3]⟩,
      ⟨0x103, false, [handlNull, handl .configGetAuthAttrV3, handl .configGetAuthAttrV3]⟩,
      ⟨0x104, true, [handlNull, handlRs .configGetButypeInfoV3, handlRs .configGetButypeInfoV4]⟩,
      ⟨0x105, true, [handlNull, handlRs .configGetFsInfoV3, handlRs .configGetFsInfoV3]⟩,
      ⟨0x106, true, [handlNull, handlRs .configGetTapeInfoV3, handlRs .configGetTapeInfoV3]⟩,
      ⟨0x107, true, [handlNull, handlRs .configGetScsiInfoV3, handlRs .configGetScsiInfoV3]⟩,
      ⟨0x108, false, [handlNull, handlRs .configGetServerInfoV3, handlRs .configGetServerInfoV3]⟩,
      ⟨0x109, true, [handlNull, handlNull, handl .configSetExtListV4]⟩,
      ⟨0x10A, true, [handlNull, handlNull, handlRs .configGetExtListV4]⟩]⟩,
    -- SCSI - 0x200
    ⟨7, [
      ⟨0x200, true, [handlNull, handlNull, handlNull]⟩,
      ⟨0x201, true, [handlNull, handlNull, handlNull]⟩,
      ⟨0x202, true, [handlNull, handlNull, handlNull]⟩,
      ⟨0x203, true, [handlNull, handlNull, handlNull]⟩,
      ⟨0x204, true, [handlNull, handlNull, handlNull]⟩,
      ⟨0x205, true, [handlNull, handlNull, handlNull]⟩,
      ⟨0x206, true, [handlNull, handlNull, handlNull]⟩]⟩,
    -- TAPE - 0x300
    ⟨8, [
      ⟨0x300, true, [handlNull, handlNull, handlNull]⟩,
      ⟨0x301, true, [handlNull, handlNull, handlNull]⟩,
      ⟨0x302, true, [handlNull, handlNull, handlNull]⟩,
      ⟨0x303, true, [handlNull, handlNull, handlNull]⟩,
      ⟨0x304, true, [handlNull, handlNull, handlNull]⟩,
      ⟨0x305, true, [handlNull, handlNull, handlNull]⟩,
      ⟨0x306, true, [handlNull, handlNull, handlNull]⟩,
      ⟨0x307, true, [handlNull, handlNull, handlNull]⟩]⟩,
    -- DATA - 0x400
    ⟨12, [
      ⟨0x400, true, [handlNull, handlRs .dataGetStateV3, handlRs .dataGetStateV4]⟩,
      ⟨0x401, true, [handlNull, handl .dataStartBackupV3, handl .dataStartBackupV3]⟩,
      ⟨0x402, true, [handlNull, handl .dataStartRecoverV3, handl .dataStartRecoverV3]⟩,
      ⟨0x403, true, [handlNull, handlRs .dataAbortV3, handlRs .dataAbortV3]⟩,
      ⟨0x404, true, [handlNull, handlRs .dataGetEnvV3, handlRs .dataGetEnvV4]⟩,
      ⟨0x405, true, [handlNull, handlNull, handlNull]⟩,
      ⟨0x406, true, [handlNull, handlNull, handlNull]⟩,
      ⟨0x407, true, [handlNull, handlRs .dataStopV3, handlRs .dataStopV3]⟩,
      ⟨0x408, true, [handlNull, handlNull, handlNull]⟩,
      ⟨0x409, true, [handlNull, handl .dataListenV3, handl .dataListenV4]⟩,
      ⟨0x40A, true, [handlNull, handl .dataConnectV3, handl .dataConnectV4]⟩,
      ⟨0x40B, true, [handlNull, handlNull, handlRs .dataStartRecoverFilehistV4]⟩]⟩,
    -- NOTIFY - 0x500
    ⟨6, [
      ⟨0x500, true, [handlNull, handlNull, handlNull]⟩,
      ⟨0x501, true, [handlNull, handlRq, handlRq]⟩,
      ⟨0x502, false, [handlNull, handlRq, handlRq]⟩,
      ⟨0x503, true, [handlNull, handlRq, handlRq]⟩,
      ⟨0x504, true, [handlNull, handlRq, handlRq]⟩,
      ⟨0x505, true, [handlNull, handlRq, handlRq]⟩]⟩,
    -- LOG - 0x600
    ⟨4, [
      ⟨0x600, true, [handlNull, handlNull, handlNull]⟩,
      ⟨0x601, true, [handlNull, handlNull, handlNull]⟩,
      ⟨0x602, true, [handlNull, handlRq, handlRq]⟩,
      ⟨0x603, true, [handlNull, handlRq, handlRq]⟩]⟩,
    -- FH - 0x700
    ⟨6, [
      ⟨0x700, true, [handlNull, handlRq, handlNull]⟩,
      ⟨0x701, true, [handlNull, handlRq, handlNull]⟩,
      ⟨0x702, true, [handlNull, handlRq, handlNull]⟩,
      ⟨0x703, true, [handlNull, handlRq, handlRq]⟩,
      ⟨0x704, true, [handlNull, handlRq, handlRq]⟩,
      ⟨0x705, true, [handlNull, handlRq, handlRq]⟩]⟩,
    -- NONE - 0x800
    ⟨0, []⟩,
    -- CONNECT - 0x900
    ⟨4, [
      ⟨0x900, false, [handlNull, handl .connectOpenV3, handl .connectOpenV3]⟩,
      ⟨0x901, false, [handlNull, handl .connectClientAuthV3, handl .connectClientAuthV3]⟩,
      ⟨0x902, false, [handlNull, handlNone .connectCloseV3, handlNone .connectCloseV3]⟩,
      ⟨0x903, true, [handlNull, handl .connectServerAuthV3, handl .connectServerAuthV3]⟩]⟩,
    -- MOVER - 0xa00
    ⟨10, [
      ⟨0xA00, true, [handlNull, handlNull, handlNull]⟩,
      ⟨0xA01, true, [handlNull, handlNull, handlNull]⟩,
      ⟨0xA02, true, [handlNull, handlNull, handlNull]⟩,
      ⟨0xA03, true, [handlNull, handlNull, handlNull]⟩,
      ⟨0xA04, true, [handlNull, handlNull, handlNull]⟩,
      ⟨0xA05, true, [handlNull, handlNull, handlNull]⟩,
      ⟨0xA06, true, [handlNull, handlNull, handlNull]⟩,
      ⟨0xA07, true, [handlNull, handlNull, handlNull]⟩,
      ⟨0xA08, true, [handlNull, handlNull, handlNull]⟩,
      ⟨0xA09, true, [handlNull, handlNull, handlNull]⟩]⟩]

end Ndmpd
