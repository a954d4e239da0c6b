import CipherMQ.Text

/-!
# Access control

The common name of a client's certificate decides its role.  Every command is
checked against the role's permissions, and a few commands are also checked
against the resources that belong to the client.
-/

namespace CipherMQ

inductive Role where
  | sender
  | receiver
  | admin
  | unknown
  deriving DecidableEq, Repr

def Role.asStr : Role → String
  | .sender => "sender"
  | .receiver => "receiver"
  | .admin => "admin"
  | .unknown => "unknown"

inductive AuthResult where
  | allowed
  | denied (reason : String)
  deriving DecidableEq, Repr

/-- The common names of each role, as the configuration lists them. -/
structure AclManager where
  senderCns : List String
  receiverCns : List String
  adminCns : List String
  deriving DecidableEq, Repr

namespace AclManager

def resolveRole (acl : AclManager) (cn : String) : Role :=
  if cn ∈ acl.adminCns then
    .admin
  else if cn ∈ acl.senderCns then
    .sender
  else if cn ∈ acl.receiverCns then
    .receiver
  else
    .unknown

/-- Whether a role's permissions cover a command. -/
def checkCommand (role : Role) (command : String) : AuthResult :=
  if role = .admin then
    .allowed
  else if role = .unknown then
    .denied "unknown role — access denied"
  else
    let allowed : Bool :=
      match command with
      | "declare_queue" => role = .receiver
      | "declare_exchange" => role = .receiver
      | "bind" => role = .receiver
      | "publish" => role = .sender
      | "publish_batch" => role = .sender
      | "consume" => role = .receiver
      | "ack" => role = .sender ∨ role = .receiver
      | "register_public_key" => role = .receiver
      | "get_public_key" => role = .sender
      | "resend" => role = .sender ∨ role = .receiver
      | "heartbeat" => role = .receiver
      | _ => false
    if allowed then
      .allowed
    else
      .denied "command not permitted for this role"

/-- Whether a resource belongs to a client.  Queues and routing keys belong to
the receiver whose common name they begin with; exchanges belong to all
receivers. -/
def checkResource (role : Role) (cn resourceType resourceName : String) :
    AuthResult :=
  if role = .admin then
    .allowed
  else if role = .unknown then
    .denied "unknown role — access denied"
  else if role = .receiver then
    let allowed : Bool :=
      match resourceType with
      | "queue" =>
          Text.startsWith resourceName (cn ++ "_") ||
            resourceName = cn ++ "_queue"
      | "exchange" => true
      | "routing_key" => Text.startsWith resourceName cn
      | _ => false
    if allowed then
      .allowed
    else
      .denied "resource access denied for this role"
  else
    .denied "resource access denied for this role"

end AclManager

end CipherMQ
