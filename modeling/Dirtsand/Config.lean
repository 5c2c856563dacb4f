/-!
# Codes shared by the servers

`NetResultCode` and `AccountFlags` of config.h.
-/

namespace Dirtsand

/-- `DS::NetResultCode`, in the order of its values from 0 on. -/
inductive NetResultCode where
  | success | internalError | timeout | badServerData
  | ageNotFound | connectFailed | disconnected
  | fileNotFound | oldBuildId | remoteShutdown
  | timeoutOdbc | accountAlreadyExists | playerAlreadyExists
  | accountNotFound | playerNotFound | invalidParameter
  | nameLookupFailed | loggedInElsewhere | vaultNodeNotFound
  | maxPlayersOnAcct | authenticationFailed
  | stateObjectNotFound | loginDenied | circularReference
  | accountNotActivated | keyAlreadyUsed | keyNotFound
  | activationCodeNotFound | playerNameInvalid
  | notSupported | serviceForbidden | authTokenTooOld
  | mustUseGameTapClient | tooManyFailedLogins
  | gameTapConnectionFailed | gtTooManyAuthOptions
  | gtMissingParameter | gtServerError | accountBanned
  | kickedByCCR | scoreWrongType | scoreNotEnoughPoints
  | scoreAlreadyExists | scoreNoDataFound
  | inviteNoMatchingPlayer | inviteTooManyHoods | needToPay
  | serverBusy
deriving DecidableEq, Repr

/-- `e_AcctAdmin`. -/
def acctAdmin : UInt32 := 1

/-- `e_AcctBetaTester`. -/
def acctBetaTester : UInt32 := 4

/-- `e_AcctBanned`. -/
def acctBanned : UInt32 := 0x10000

end Dirtsand
