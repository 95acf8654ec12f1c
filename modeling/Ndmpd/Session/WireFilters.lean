import Ndmpd.Foundation.Xdr

/-!
# The XDR functions of the messages

For each structure of the protocol that a message of the handler table is made of the
function that encodes and decodes it, put together from those of the library. An array
names the size of its elements in memory. Behind them stands the part of the handler table
that says which function is for the body of which message (`ndmpXdrTab`).
-/

namespace Ndmpd

open Foundation

/-! ## The header -/

def xdrNdmpHeaderMessageType : Xdr := .enum
def xdrNdmpMessage : Xdr := .enum
def xdrNdmpError : Xdr := .enum

def xdrNdmpHeader : Xdr := .record [
  .uLong, .uLong, xdrNdmpHeaderMessageType, xdrNdmpMessage, .uLong, xdrNdmpError]

/-! ## Configuration -/

def xdrNdmpConfigGetHostInfoReplyV3 : Xdr := .record [
  xdrNdmpError, .string, .string, .string, .string]

def xdrNdmpConfigGetHostInfoReplyV4 : Xdr := xdrNdmpConfigGetHostInfoReplyV3
def xdrNdmpAddrType : Xdr := .enum
def xdrNdmpConfigGetConnectionTypeReplyV3 : Xdr := .record [xdrNdmpError, .array 4 xdrNdmpAddrType]
def xdrNdmpConfigGetConnectionTypeReplyV4 : Xdr := xdrNdmpConfigGetConnectionTypeReplyV3
def xdrNdmpAuthType : Xdr := .enum
def xdrNdmpConfigGetAuthAttrRequest : Xdr := xdrNdmpAuthType
def xdrNdmpConfigGetAuthAttrRequestV3 : Xdr := xdrNdmpConfigGetAuthAttrRequest

/-- NONE, TEXT and MD5; only the last one has a challenge. -/
def xdrNdmpAuthAttr : Xdr := .switch [(0, .void), (1, .void), (2, .fixed 64)] none

def xdrNdmpConfigGetAuthAttrReply : Xdr := .record [xdrNdmpError, xdrNdmpAuthAttr]
def xdrNdmpConfigGetAuthAttrReplyV3 : Xdr := xdrNdmpConfigGetAuthAttrReply
def xdrNdmpConfigGetAuthAttrRequestV4 : Xdr := xdrNdmpConfigGetAuthAttrRequest
def xdrNdmpConfigGetAuthAttrReplyV4 : Xdr := xdrNdmpConfigGetAuthAttrReply
def xdrNdmpPval : Xdr := .record [.string, .string]
def xdrNdmpButypeInfo : Xdr := .record [.string, .array 16 xdrNdmpPval, .uLong]
def xdrNdmpConfigGetButypeInfoReplyV3 : Xdr := .record [xdrNdmpError, .array 32 xdrNdmpButypeInfo]
def xdrNdmpConfigGetButypeInfoReplyV4 : Xdr := .record [xdrNdmpError, .array 32 xdrNdmpButypeInfo]
def xdrNdmpUQuad : Xdr := .record [.uLong, .uLong]

def xdrNdmpFsInfoV3 : Xdr := .record [
  .uLong, .string, .string, .string, xdrNdmpUQuad, xdrNdmpUQuad, xdrNdmpUQuad, xdrNdmpUQuad,
  xdrNdmpUQuad, .array 16 xdrNdmpPval, .string]

def xdrNdmpConfigGetFsInfoReplyV3 : Xdr := .record [xdrNdmpError, .array 136 xdrNdmpFsInfoV3]
def xdrNdmpConfigGetFsInfoReplyV4 : Xdr := xdrNdmpConfigGetFsInfoReplyV3
def xdrNdmpDeviceCapabilityV3 : Xdr := .record [.string, .uLong, .array 16 xdrNdmpPval]
def xdrNdmpDeviceInfoV3 : Xdr := .record [.string, .array 32 xdrNdmpDeviceCapabilityV3]
def xdrNdmpConfigGetTapeInfoReplyV3 : Xdr := .record [xdrNdmpError, .array 24 xdrNdmpDeviceInfoV3]
def xdrNdmpConfigGetTapeInfoReplyV4 : Xdr := xdrNdmpConfigGetTapeInfoReplyV3
def xdrNdmpConfigGetScsiInfoReplyV3 : Xdr := .record [xdrNdmpError, .array 24 xdrNdmpDeviceInfoV3]
def xdrNdmpConfigGetScsiInfoReplyV4 : Xdr := xdrNdmpConfigGetScsiInfoReplyV3

def xdrNdmpConfigGetServerInfoReplyV3 : Xdr := .record [
  xdrNdmpError, .string, .string, .string, .array 4 xdrNdmpAuthType]

def xdrNdmpConfigGetServerInfoReplyV4 : Xdr := xdrNdmpConfigGetServerInfoReplyV3
def xdrNdmpClassVersion : Xdr := .record [.uShort, .uShort]
def xdrNdmpConfigSetExtListRequest : Xdr := .array 4 xdrNdmpClassVersion
def xdrNdmpConfigSetExtListRequestV4 : Xdr := xdrNdmpConfigSetExtListRequest
def xdrNdmpConfigSetExtListReply : Xdr := xdrNdmpError
def xdrNdmpConfigSetExtListReplyV4 : Xdr := xdrNdmpConfigSetExtListReply
def xdrNdmpClassList : Xdr := .record [.uShort, .array 2 .uShort]
def xdrNdmpConfigGetExtListReply : Xdr := .record [xdrNdmpError, .array 24 xdrNdmpClassList]
def xdrNdmpConfigGetExtListReplyV4 : Xdr := xdrNdmpConfigGetExtListReply

/-! ## The data server -/

def xdrNdmpDataOperation : Xdr := .enum
def xdrNdmpDataState : Xdr := .enum
def xdrNdmpDataHaltReason : Xdr := .enum
def xdrNdmpTcpAddr : Xdr := .record [.uLong, .uShort]
def xdrNdmpFcAddrV3 : Xdr := .uLong
def xdrNdmpIpcAddrV3 : Xdr := .bytes

/-- LOCAL, TCP, FC and IPC. -/
def xdrNdmpAddrV3 : Xdr :=
  .switch [(0, .void), (1, xdrNdmpTcpAddr), (2, xdrNdmpFcAddrV3), (3, xdrNdmpIpcAddrV3)] none

def xdrNdmpDataGetStateReplyV3 : Xdr := .record [
  .uLong, xdrNdmpError, xdrNdmpDataOperation, xdrNdmpDataState, xdrNdmpDataHaltReason, xdrNdmpUQuad,
  xdrNdmpUQuad, .uLong, xdrNdmpAddrV3, xdrNdmpUQuad, xdrNdmpUQuad]

def xdrNdmpTcpAddrV4 : Xdr := .record [.uLong, .uShort, .array 16 xdrNdmpPval]

/-- LOCAL, TCP and IPC, with any number of addresses for TCP. -/
def xdrNdmpAddrV4 : Xdr :=
  .switch [(0, .void), (1, .array 32 xdrNdmpTcpAddrV4), (3, xdrNdmpIpcAddrV3)] none

def xdrNdmpDataGetStateReplyV4 : Xdr := .record [
  .uLong, xdrNdmpError, xdrNdmpDataOperation, xdrNdmpDataState, xdrNdmpDataHaltReason, xdrNdmpUQuad,
  xdrNdmpUQuad, .uLong, xdrNdmpAddrV4, xdrNdmpUQuad, xdrNdmpUQuad]

def xdrNdmpDataStartBackupRequestV3 : Xdr := .record [.string, .array 16 xdrNdmpPval]
def xdrNdmpDataStartBackupReply : Xdr := xdrNdmpError
def xdrNdmpDataStartBackupReplyV3 : Xdr := xdrNdmpDataStartBackupReply
def xdrNdmpDataStartBackupRequestV4 : Xdr := xdrNdmpDataStartBackupRequestV3
def xdrNdmpDataStartBackupReplyV4 : Xdr := xdrNdmpDataStartBackupReply
def xdrNdmpNameV3 : Xdr := .record [.string, .string, .string, .string, xdrNdmpUQuad, xdrNdmpUQuad]

def xdrNdmpDataStartRecoverRequestV3 : Xdr := .record [
  .array 16 xdrNdmpPval, .array 64 xdrNdmpNameV3, .string]

def xdrNdmpDataStartRecoverReply : Xdr := xdrNdmpError
def xdrNdmpDataStartRecoverReplyV3 : Xdr := xdrNdmpDataStartRecoverReply
def xdrNdmpDataStartRecoverRequestV4 : Xdr := xdrNdmpDataStartRecoverRequestV3
def xdrNdmpDataStartRecoverReplyV4 : Xdr := xdrNdmpDataStartRecoverReply
def xdrNdmpDataAbortReply : Xdr := xdrNdmpError
def xdrNdmpDataAbortReplyV3 : Xdr := xdrNdmpDataAbortReply
def xdrNdmpDataAbortReplyV4 : Xdr := xdrNdmpDataAbortReply
def xdrNdmpDataGetEnvReply : Xdr := .record [xdrNdmpError, .array 16 xdrNdmpPval]
def xdrNdmpDataGetEnvReplyV3 : Xdr := xdrNdmpDataGetEnvReply
def xdrNdmpDataGetEnvReplyV4 : Xdr := xdrNdmpDataGetEnvReply
def xdrNdmpDataStopReply : Xdr := xdrNdmpError
def xdrNdmpDataStopReplyV3 : Xdr := xdrNdmpDataStopReply
def xdrNdmpDataStopReplyV4 : Xdr := xdrNdmpDataStopReply
def xdrNdmpDataListenRequestV3 : Xdr := xdrNdmpAddrType
def xdrNdmpDataListenReplyV3 : Xdr := .record [xdrNdmpError, xdrNdmpAddrV3]
def xdrNdmpDataListenRequestV4 : Xdr := xdrNdmpDataListenRequestV3
def xdrNdmpDataListenReplyV4 : Xdr := .record [xdrNdmpError, xdrNdmpAddrV4]
def xdrNdmpDataConnectRequestV3 : Xdr := xdrNdmpAddrV3
def xdrNdmpDataConnectReplyV3 : Xdr := xdrNdmpError
def xdrNdmpDataConnectRequestV4 : Xdr := xdrNdmpAddrV4
def xdrNdmpDataConnectReplyV4 : Xdr := xdrNdmpDataConnectReplyV3
def xdrNdmpDataStartRecoverFilehistReplyV4 : Xdr := xdrNdmpDataStartRecoverReply

/-! ## Notifications -/

def xdrNdmpNotifyDataHaltedRequest : Xdr := .record [xdrNdmpDataHaltReason, .string]
def xdrNdmpNotifyDataHaltedRequestV3 : Xdr := xdrNdmpNotifyDataHaltedRequest
def xdrNdmpNotifyDataHaltedRequestV4 : Xdr := xdrNdmpDataHaltReason
def xdrNdmpConnectReason : Xdr := .enum
def xdrNdmpNotifyConnectedRequest : Xdr := .record [xdrNdmpConnectReason, .uShort, .string]
def xdrNdmpNotifyConnectionStatusRequestV3 : Xdr := xdrNdmpNotifyConnectedRequest
def xdrNdmpNotifyConnectionStatusRequestV4 : Xdr := xdrNdmpNotifyConnectedRequest
def xdrNdmpMoverHaltReason : Xdr := .enum
def xdrNdmpNotifyMoverHaltedRequest : Xdr := .record [xdrNdmpMoverHaltReason, .string]
def xdrNdmpNotifyMoverHaltedRequestV3 : Xdr := xdrNdmpNotifyMoverHaltedRequest
def xdrNdmpNotifyMoverHaltedRequestV4 : Xdr := xdrNdmpMoverHaltReason
def xdrNdmpMoverPauseReason : Xdr := .enum
def xdrNdmpNotifyMoverPausedRequest : Xdr := .record [xdrNdmpMoverPauseReason, xdrNdmpUQuad]
def xdrNdmpNotifyMoverPausedRequestV3 : Xdr := xdrNdmpNotifyMoverPausedRequest
def xdrNdmpNotifyMoverPausedRequestV4 : Xdr := xdrNdmpNotifyMoverPausedRequest
def xdrNdmpNotifyDataReadRequest : Xdr := .record [xdrNdmpUQuad, xdrNdmpUQuad]
def xdrNdmpNotifyDataReadRequestV3 : Xdr := xdrNdmpNotifyDataReadRequest
def xdrNdmpNotifyDataReadRequestV4 : Xdr := xdrNdmpNotifyDataReadRequest

/-! ## The log -/

def xdrNdmpLogFileRequestV3 : Xdr := .record [.string, xdrNdmpError]
def xdrNdmpRecoveryStatus : Xdr := .enum
def xdrNdmpLogFileRequestV4 : Xdr := .record [.string, xdrNdmpRecoveryStatus]
def xdrNdmpLogType : Xdr := .enum
def xdrNdmpLogMessageRequestV3 : Xdr := .record [xdrNdmpLogType, .uLong, .string]
def xdrNdmpHasAssociatedMessage : Xdr := .enum

def xdrNdmpLogMessageRequestV4 : Xdr := .record [
  xdrNdmpLogType, .uLong, .string, xdrNdmpHasAssociatedMessage, .uLong]

/-! ## The file history -/

def xdrNdmpUnixPath : Xdr := .string
def xdrNdmpFileType : Xdr := .enum

def xdrNdmpUnixFileStat : Xdr := .record [
  xdrNdmpFileType, .uLong, .uLong, .uLong, .uLong, .uLong, .uLong, xdrNdmpUQuad, xdrNdmpUQuad]

def xdrNdmpFhUnixPath : Xdr := .record [xdrNdmpUnixPath, xdrNdmpUnixFileStat]
def xdrNdmpFhAddUnixPathRequest : Xdr := .array 96 xdrNdmpFhUnixPath
def xdrNdmpFhAddUnixPathRequestV3 : Xdr := xdrNdmpFhAddUnixPathRequest
def xdrNdmpFhUnixDir : Xdr := .record [xdrNdmpUnixPath, .uLong, .uLong]
def xdrNdmpFhAddUnixDirRequest : Xdr := .array 24 xdrNdmpFhUnixDir
def xdrNdmpFhAddUnixDirRequestV3 : Xdr := xdrNdmpFhAddUnixDirRequest
def xdrNdmpFhUnixNode : Xdr := .record [xdrNdmpUnixFileStat, .uLong]
def xdrNdmpFhAddUnixNodeRequest : Xdr := .array 96 xdrNdmpFhUnixNode
def xdrNdmpFhAddUnixNodeRequestV3 : Xdr := xdrNdmpFhAddUnixNodeRequest
def xdrNdmpFsType : Xdr := .enum
def xdrNdmpPathV3 : Xdr := .string
def xdrNdmpNtPathV3 : Xdr := .record [xdrNdmpPathV3, xdrNdmpPathV3]

/-- UNIX and NT; any other file system has the name of the last arm. -/
def xdrNdmpFileNameV3 : Xdr :=
  .switch [(0, xdrNdmpPathV3), (1, xdrNdmpNtPathV3)] (some xdrNdmpPathV3)

def xdrNdmpFileStatV3 : Xdr := .record [
  .uLong, xdrNdmpFsType, xdrNdmpFileType, .uLong, .uLong, .uLong, .uLong, .uLong, .uLong,
  xdrNdmpUQuad, .uLong]

def xdrNdmpFileV3 : Xdr := .record [
  .array 24 xdrNdmpFileNameV3, .array 88 xdrNdmpFileStatV3, xdrNdmpUQuad, xdrNdmpUQuad]

def xdrNdmpFhAddFileRequestV3 : Xdr := .array 64 xdrNdmpFileV3
def xdrNdmpFhAddFileRequestV4 : Xdr := xdrNdmpFhAddFileRequestV3
def xdrNdmpDirV3 : Xdr := .record [.array 24 xdrNdmpFileNameV3, xdrNdmpUQuad, xdrNdmpUQuad]
def xdrNdmpFhAddDirRequestV3 : Xdr := .array 48 xdrNdmpDirV3
def xdrNdmpFhAddDirRequestV4 : Xdr := xdrNdmpFhAddDirRequestV3
def xdrNdmpNodeV3 : Xdr := .record [.array 88 xdrNdmpFileStatV3, xdrNdmpUQuad, xdrNdmpUQuad]
def xdrNdmpFhAddNodeRequestV3 : Xdr := .array 48 xdrNdmpNodeV3
def xdrNdmpFhAddNodeRequestV4 : Xdr := xdrNdmpFhAddNodeRequestV3

/-! ## The connection -/

def xdrNdmpConnectOpenRequest : Xdr := .uShort
def xdrNdmpConnectOpenRequestV3 : Xdr := xdrNdmpConnectOpenRequest
def xdrNdmpConnectOpenReply : Xdr := xdrNdmpError
def xdrNdmpConnectOpenReplyV3 : Xdr := xdrNdmpConnectOpenReply
def xdrNdmpConnectOpenRequestV4 : Xdr := xdrNdmpConnectOpenRequest
def xdrNdmpConnectOpenReplyV4 : Xdr := xdrNdmpConnectOpenReply
def xdrNdmpAuthTextV3 : Xdr := .record [.string, .string]
def xdrNdmpAuthMd5V3 : Xdr := .record [.string, .fixed 16]

/-- NONE, TEXT and MD5. -/
def xdrNdmpAuthDataV3 : Xdr :=
  .switch [(0, .void), (1, xdrNdmpAuthTextV3), (2, xdrNdmpAuthMd5V3)] none

def xdrNdmpConnectClientAuthRequestV3 : Xdr := xdrNdmpAuthDataV3
def xdrNdmpConnectClientAuthReplyV3 : Xdr := xdrNdmpError
def xdrNdmpConnectClientAuthRequestV4 : Xdr := xdrNdmpConnectClientAuthRequestV3
def xdrNdmpConnectClientAuthReplyV4 : Xdr := xdrNdmpConnectClientAuthReplyV3
def xdrNdmpConnectServerAuthRequest : Xdr := xdrNdmpAuthAttr
def xdrNdmpConnectServerAuthRequestV3 : Xdr := xdrNdmpConnectServerAuthRequest
def xdrNdmpAuthText : Xdr := .record [.string, .string]
def xdrNdmpAuthMd5 : Xdr := .record [.string, .fixed 16]

/-- NONE, TEXT and MD5. -/
def xdrNdmpAuthData : Xdr :=
  .switch [(0, .void), (1, xdrNdmpAuthText), (2, xdrNdmpAuthMd5)] none

def xdrNdmpConnectServerAuthReply : Xdr := .record [xdrNdmpError, xdrNdmpAuthData]
def xdrNdmpConnectServerAuthReplyV3 : Xdr := xdrNdmpConnectServerAuthReply
def xdrNdmpConnectServerAuthRequestV4 : Xdr := xdrNdmpConnectServerAuthRequest
def xdrNdmpConnectServerAuthReplyV4 : Xdr := xdrNdmpConnectServerAuthReply

/-! ## The table -/

/-- The XDR functions of an `ndmp_msg_handler_t`. -/
structure MsgXdr where
  mhXdrRequest : Option Xdr
  mhXdrReply : Option Xdr

/-- `HANDL`. -/
def xdrHandl (request reply : Xdr) : MsgXdr := ⟨some request, some reply⟩

/-- `HANDL_RQ`. -/
def xdrRq (request : Xdr) : MsgXdr := ⟨some request, none⟩

/-- `HANDL_RS`. -/
def xdrRs (reply : Xdr) : MsgXdr := ⟨none, some reply⟩

/-- `HANDL_NONE` and `HANDL_NULL`. -/
def xdrNull : MsgXdr := ⟨none, none⟩

/-- The XDR functions of `ndmp_msghdl_tab`, at the places of their handlers. -/
def ndmpXdrTab : List (List (List MsgXdr)) := [
    -- NONE - 0x000
    [[xdrNull, xdrNull, xdrNull]],
    -- CONFIG - 0x100
    [[xdrNull, xdrRs xdrNdmpConfigGetHostInfoReplyV3, xdrRs xdrNdmpConfigGetHostInfoReplyV4],
     [xdrNull, xdrNull, xdrNull],
     [xdrNull,
      xdrRs xdrNdmpConfigGetConnectionTypeReplyV3,
      xdrRs xdrNdmpConfigGetConnectionTypeReplyV4],
     [xdrNull,
      xdrHandl xdrNdmpConfigGetAuthAttrRequestV3 xdrNdmpConfigGetAuthAttrReplyV3,
      xdrHandl xdrNdmpConfigGetAuthAttrRequestV4 xdrNdmpConfigGetAuthAttrReplyV4],
     [xdrNull, xdrRs xdrNdmpConfigGetButypeInfoReplyV3, xdrRs xdrNdmpConfigGetButypeInfoReplyV4],
     [xdrNull, xdrRs xdrNdmpConfigGetFsInfoReplyV3, xdrRs xdrNdmpConfigGetFsInfoReplyV4],
     [xdrNull, xdrRs xdrNdmpConfigGetTapeInfoReplyV3, xdrRs xdrNdmpConfigGetTapeInfoReplyV4],
     [xdrNull, xdrRs xdrNdmpConfigGetScsiInfoReplyV3, xdrRs xdrNdmpConfigGetScsiInfoReplyV4],
     [xdrNull, xdrRs xdrNdmpConfigGetServerInfoReplyV3, xdrRs xdrNdmpConfigGetServerInfoReplyV4],
     [xdrNull, xdrNull, xdrHandl xdrNdmpConfigSetExtListRequestV4 xdrNdmpConfigSetExtListReplyV4],
     [xdrNull, xdrNull, xdrRs xdrNdmpConfigGetExtListReplyV4]],
    -- SCSI - 0x200
    [[xdrNull, xdrNull, xdrNull],
     [xdrNull, xdrNull, xdrNull],
     [xdrNull, xdrNull, xdrNull],
     [xdrNull, xdrNull, xdrNull],
     [xdrNull, xdrNull, xdrNull],
     [xdrNull, xdrNull, xdrNull],
     [xdrNull, xdrNull, xdrNull]],
    -- TAPE - 0x300
    [[xdrNull, xdrNull, xdrNull],
     [xdrNull, xdrNull, xdrNull],
     [xdrNull, xdrNull, xdrNull],
     [xdrNull, xdrNull, xdrNull],
     [xdrNull, xdrNull, xdrNull],
     [xdrNull, xdrNull, xdrNull],
     [xdrNull, xdrNull, xdrNull],
     [xdrNull, xdrNull, xdrNull]],
    -- DATA - 0x400
    [[xdrNull, xdrRs xdrNdmpDataGetStateReplyV3, xdrRs xdrNdmpDataGetStateReplyV4],
     [xdrNull,
      xdrHandl xdrNdmpDataStartBackupRequestV3 xdrNdmpDataStartBackupReplyV3,
      xdrHandl xdrNdmpDataStartBackupRequestV4 xdrNdmpDataStartBackupReplyV4],
     [xdrNull,
      xdrHandl xdrNdmpDataStartRecoverRequestV3 xdrNdmpDataStartRecoverReplyV3,
      xdrHandl xdrNdmpDataStartRecoverRequestV4 xdrNdmpDataStartRecoverReplyV4],
     [xdrNull, xdrRs xdrNdmpDataAbortReplyV3, xdrRs xdrNdmpDataAbortReplyV4],
     [xdrNull, xdrRs xdrNdmpDataGetEnvReplyV3, xdrRs xdrNdmpDataGetEnvReplyV4],
     [xdrNull, xdrNull, xdrNull],
     [xdrNull, xdrNull, xdrNull],
     [xdrNull, xdrRs xdrNdmpDataStopReplyV3, xdrRs xdrNdmpDataStopReplyV4],
     [xdrNull, xdrNull, xdrNull],
     [xdrNull,
      xdrHandl xdrNdmpDataListenRequestV3 xdrNdmpDataListenReplyV3,
      xdrHandl xdrNdmpDataListenRequestV4 xdrNdmpDataListenReplyV4],
     [xdrNull,
      xdrHandl xdrNdmpDataConnectRequestV3 xdrNdmpDataConnectReplyV3,
      xdrHandl xdrNdmpDataConnectRequestV4 xdrNdmpDataConnectReplyV4],
     [xdrNull, xdrNull, xdrRs xdrNdmpDataStartRecoverFilehistReplyV4]],
    -- NOTIFY - 0x500
    [[xdrNull, xdrNull, xdrNull],
     [xdrNull, xdrRq xdrNdmpNotifyDataHaltedRequestV3, xdrRq xdrNdmpNotifyDataHaltedRequestV4],
     [xdrNull,
      xdrRq xdrNdmpNotifyConnectionStatusRequestV3,
      xdrRq xdrNdmpNotifyConnectionStatusRequestV4],
     [xdrNull, xdrRq xdrNdmpNotifyMoverHaltedRequestV3, xdrRq xdrNdmpNotifyMoverHaltedRequestV4],
     [xdrNull, xdrRq xdrNdmpNotifyMoverPausedRequestV3, xdrRq xdrNdmpNotifyMoverPausedRequestV4],
     [xdrNull, xdrRq xdrNdmpNotifyDataReadRequestV3, xdrRq xdrNdmpNotifyDataReadRequestV4]],
    -- LOG - 0x600
    [[xdrNull, xdrNull, xdrNull],
     [xdrNull, xdrNull, xdrNull],
     [xdrNull, xdrRq xdrNdmpLogFileRequestV3, xdrRq xdrNdmpLogFileRequestV4],
     [xdrNull, xdrRq xdrNdmpLogMessageRequestV3, xdrRq xdrNdmpLogMessageRequestV4]],
    -- FH - 0x700
    [[xdrNull, xdrRq xdrNdmpFhAddUnixPathRequestV3, xdrNull],
     [xdrNull, xdrRq xdrNdmpFhAddUnixDirRequestV3, xdrNull],
     [xdrNull, xdrRq xdrNdmpFhAddUnixNodeRequestV3, xdrNull],
     [xdrNull, xdrRq xdrNdmpFhAddFileRequestV3, xdrRq xdrNdmpFhAddFileRequestV4],
     [xdrNull, xdrRq xdrNdmpFhAddDirRequestV3, xdrRq xdrNdmpFhAddDirRequestV4],
     [xdrNull, xdrRq xdrNdmpFhAddNodeRequestV3, xdrRq xdrNdmpFhAddNodeRequestV4]],
    -- NONE - 0x800
    [],
    -- CONNECT - 0x900
    [[xdrNull,
      xdrHandl xdrNdmpConnectOpenRequestV3 xdrNdmpConnectOpenReplyV3,
      xdrHandl xdrNdmpConnectOpenRequestV4 xdrNdmpConnectOpenReplyV4],
     [xdrNull,
      xdrHandl xdrNdmpConnectClientAuthRequestV3 xdrNdmpConnectClientAuthReplyV3,
      xdrHandl xdrNdmpConnectClientAuthRequestV4 xdrNdmpConnectClientAuthReplyV4],
     [xdrNull, xdrNull, xdrNull],
     [xdrNull,
      xdrHandl xdrNdmpConnectServerAuthRequestV3 xdrNdmpConnectServerAuthReplyV3,
      xdrHandl xdrNdmpConnectServerAuthRequestV4 xdrNdmpConnectServerAuthReplyV4]],
    -- MOVER - 0xa00
    [[xdrNull, xdrNull, xdrNull],
     [xdrNull, xdrNull, xdrNull],
     [xdrNull, xdrNull, xdrNull],
     [xdrNull, xdrNull, xdrNull],
     [xdrNull, xdrNull, xdrNull],
     [xdrNull, xdrNull, xdrNull],
     [xdrNull, xdrNull, xdrNull],
     [xdrNull, xdrNull, xdrNull],
     [xdrNull, xdrNull, xdrNull],
     [xdrNull, xdrNull, xdrNull]]]

end Ndmpd
