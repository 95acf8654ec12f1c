/-!
# Numbers of the protocol

The error codes of the protocol, shared by the message dispatch and the handlers.
-/

namespace Ndmpd

/-- `ndmp_error`. -/
inductive NdmpError where
  | noErr
  | notSupportedErr
  | deviceBusyErr
  | deviceOpenedErr
  | notAuthorizedErr
  | permissionErr
  | devNotOpenErr
  | ioErr
  | timeoutErr
  | illegalArgsErr
  | noTapeLoadedErr
  | writeProtectErr
  | eofErr
  | eomErr
  | fileNotFoundErr
  | badFileErr
  | noDeviceErr
  | noBusErr
  | xdrDecodeErr
  | illegalStateErr
  | undefinedErr
  | xdrEncodeErr
  | noMemErr
  | connectErr
  | sequenceNumErr
  | readInProgressErr
  | preconditionErr
  | classNotSupportedErr
  | versionNotSupportedErr
  | extDuplClassesErr
  | extDandnIllegalErr
  deriving DecidableEq, Repr

/-- The number of an error on the wire. -/
def NdmpError.code : NdmpError → Nat
  | .noErr => 0
  | .notSupportedErr => 1
  | .deviceBusyErr => 2
  | .deviceOpenedErr => 3
  | .notAuthorizedErr => 4
  | .permissionErr => 5
  | .devNotOpenErr => 6
  | .ioErr => 7
  | .timeoutErr => 8
  | .illegalArgsErr => 9
  | .noTapeLoadedErr => 10
  | .writeProtectErr => 11
  | .eofErr => 12
  | .eomErr => 13
  | .fileNotFoundErr => 14
  | .badFileErr => 15
  | .noDeviceErr => 16
  | .noBusErr => 17
  | .xdrDecodeErr => 18
  | .illegalStateErr => 19
  | .undefinedErr => 20
  | .xdrEncodeErr => 21
  | .noMemErr => 22
  | .connectErr => 23
  | .sequenceNumErr => 24
  | .readInProgressErr => 25
  | .preconditionErr => 26
  | .classNotSupportedErr => 27
  | .versionNotSupportedErr => 28
  | .extDuplClassesErr => 29
  | .extDandnIllegalErr => 30

end Ndmpd
