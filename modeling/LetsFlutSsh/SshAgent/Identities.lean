import LetsFlutSsh.Lib.Text
import LetsFlutSsh.SshAgent.Endpoint

/-!
# SSH agent: the listing

`ssh_agent/identities.rs`: every publishable key with its certificate, and the bytes of the answer.

* `encodeString`, `decodeString` : the `string` of the protocol, a big-endian length and the bytes;
* `rowIsPublishable`, `buildAdvertised` : what is listed;
* `encodeIdentitiesAnswer` : the answer's bytes.
-/

namespace LetsFlutSsh.SshAgent
open Lib

/-- `u32::encode`: four bytes, most significant first. -/
def encodeU32 (n : UInt32) : Bytes := (leBytes 4 n.toNat).reverse

def encodeString (b : Bytes) : Except String Bytes :=
  if b.length < 2 ^ 32 then .ok (encodeU32 (.ofNat b.length) ++ b) else .error "length invalid"

/-- `u32::from_be_bytes`. -/
def ofBeBytes (bs : Bytes) : UInt32 := .ofNat (ofLeBytes bs.reverse)

def decodeU32 (bs : Bytes) : Option (UInt32 × Bytes) := (readExact 4 bs).map fun r => (ofBeBytes r.1, r.2)

/-- A length above the limit of `ssh-encoding` is refused before anything is read. -/
def decodeString (bs : Bytes) : Option (Bytes × Bytes) :=
  (decodeU32 bs).bind fun r => if r.1.toNat ≤ 0xFFFFF then readExact r.1.toNat r.2 else none

def identitiesAnswerMsgId : UInt8 := 12

structure Advertised where
  keyBlob : Bytes
  comment : String

def rowIsPublishable (row : SshKeyRow) : Bool :=
  BackendKind.fromRow row ≠ .software && row.agentPolicy ≠ .deny &&
    !(BackendKind.fromRow row = .fido2 && row.hasUserVerification)

variable {KeyData : Type}

section Listing

variable (w : Wire KeyData)

def bareKeyBlob (row : SshKeyRow) : Option Bytes := (w.fromOpenssh row.publicKey).bind w.encodeKeyData

def certBlob (certificate : Bytes) : Option Bytes :=
  (fromUtf8 certificate).bind fun text => w.certToBytes (String.ofList (trim text.toList))

/-- The identities of one publishable row: the bare key, then the certificate when it parses. -/
def advertise (row : SshKeyRow) (bare : Bytes) (certificate : Option Bytes) : List Advertised :=
  ⟨bare, row.label⟩ :: ((certificate.bind (certBlob w)).map fun blob => ⟨blob, row.label⟩).toList

def buildAdvertised : List SshKeyRow → Handler (Except String (List Advertised))
  | [] => .done (.ok [])
  | row :: rows =>
    if !rowIsPublishable row then buildAdvertised rows
    else
      match bareKeyBlob w row with
      | none => buildAdvertised rows
      | some bare =>
        (Prog.perform (Op.lookupCert row.id)).andThen fun certificate =>
          (buildAdvertised rows).andThen fun rest => .done (.ok (advertise w row bare certificate ++ rest))

end Listing

def encodeAdvertised (a : Advertised) : Except String Bytes :=
  (encodeString a.keyBlob).bind fun keyBlob => (encodeString (utf8 a.comment)).map fun comment => keyBlob ++ comment

def encodeIdentitiesAnswer (advertised : List Advertised) : Except String Bytes :=
  (advertised.mapM encodeAdvertised).map fun identities =>
    identitiesAnswerMsgId :: encodeU32 (.ofNat advertised.length) ++ identities.flatten

section Permission

variable {w : Wire KeyData} {ep : Endpoint} {q : List Event}

theorem buildAdvertised_lawful (h : Lawful ep q) (rows : List SshKeyRow) :
    Keeping ep (buildAdvertised w rows) (fun _ _ => True) q := by
  induction rows generalizing q with
  | nil => exact ⟨h, trivial⟩
  | cons row rows ih =>
    unfold buildAdvertised
    split
    · exact ih h
    · split
      · exact ih h
      · refine Prog.Keeps.andThen (E := fun _ q => Lawful ep q ∧ True) ?_ (fun e q' h' => h') fun certificate q' h' => ?_
        · exact ⟨h, fun certificate => ⟨h.other _ rfl certificate, trivial⟩⟩
        · exact (ih h'.1).andThen (fun e q'' h'' => h'') fun rest q'' h'' => h''

end Permission

end LetsFlutSsh.SshAgent
