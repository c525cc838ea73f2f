import Nook.EventLog.Text

set_option autoImplicit false

namespace Nook.Auth

open Nook.EventLog

/-- One decrypted vault roster entry. -/
structure VaultMember where
  authId : AuthKeyId
  deviceId : DeviceId
  publicKey : DevicePublicKey
  enrolledAt : Str
  label : MemberLabelState
  deriving DecidableEq

end Nook.Auth
