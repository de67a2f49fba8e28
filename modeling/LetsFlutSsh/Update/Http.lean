import LetsFlutSsh.Lib.Bytes
import LetsFlutSsh.Sftp.DownloadDir
import LetsFlutSsh.Update.Metadata

/-!
# The HTTP client of the update channel

* `followRedirects` : the client's own loop, which knows no guard;
* `fetchText`, `downloadToFile` : the guard on the address, the client's loop, the guard on the last address;
* `TalksOnlyToGithub` : no run of a program sends a request to another host;
* `talksOnlyToGithub_iff` : for which addresses and redirect targets that holds.

The servers may answer as they like; bodies are finite, as the client stops after a time.
-/

namespace LetsFlutSsh.Update
open Lib
open Sftp (Platform saturatingAdd)

/-! ## Requests and answers -/

inductive Scheme where
  | https
  | http
  | other
  deriving DecidableEq

structure Url where
  scheme : Scheme
  host : Text
  /-- The address in the client's spelling. -/
  text : Text
  deriving DecidableEq

structure Response where
  status : Nat
  contentLength : Option Nat
  chunks : List Bytes
  /-- The error that ends the body early. -/
  failure : Option Text

inductive Reply where
  | failed (e : Text)
  | redirect (target : Url)
  | response (r : Response)

inductive Event where
  | downloadProgress (url : Text) (writtenBytes : Nat) (totalBytes : Option Nat)
  | verifyingStarted (url : Text)
  | downloadCompleted (url path : Text)
  deriving DecidableEq

inductive Op where
  | buildClient
  | send (u : Url)
  | createDirAll (path : Text)
  | create (path : Text)
  /-- The next chunk of the body that goes into the file. -/
  | next (path : Text)
  | write (path : Text) (bytes : Bytes)
  | flush (path : Text)
  | openFile (path : Text)
  | read (path : Text)
  /-- The guard that removes partial files. -/
  | track (path : Text)
  | disarm
  | publish (event : Event)
  deriving DecidableEq

abbrev Resp : Op → Type
  | .send _ => Reply
  | .read _ => Except Text Bytes
  | .next _ => Unit
  | .track _ => Unit
  | .disarm => Unit
  | .publish _ => Unit
  | _ => Except Text Unit

abbrev Error := Text

abbrev Call (α : Type) := Prog Op Resp (Except Error α)

/-- The client library, the hash and how values print. -/
structure HttpEnv where
  hosts : DomainParser
  spelling : Text → Text
  urlError : Text → Text
  statusText : Nat → Text
  /-- `Response::text`. -/
  decodeText : Response → Text
  debugPath : Text → Text
  sha256 : Bytes → Bytes
  platform : Platform

/-- The client's reading of an address that begins with `https://`. -/
def HttpEnv.parse (env : HttpEnv) (url : Text) : Option Url :=
  (clientHost env.hosts url).map fun host => ⟨.https, host, env.spelling url⟩

/-! ## The client -/

def maxRedirects : Nat := 10

def tooManyRedirects : Text := "too many redirects".toList

def schemeError : Text := "URL scheme is not allowed".toList

def request (onRedirect : Url → Call (Url × Response)) (u : Url) : Call (Url × Response) :=
  if u.scheme = .other then .done (.error schemeError)
  else (Prog.perform (Op.send u)).bind fun
    | .failed e => .done (.error e)
    | .redirect target => onRedirect target
    | .response r => .done (.ok (u, r))

def followRedirects : Nat → Url → Call (Url × Response)
  | 0 => request fun _ => .done (.error tooManyRedirects)
  | remaining + 1 => request (followRedirects remaining)

def HttpEnv.send (env : HttpEnv) (url : Text) : Call (Url × Response) :=
  match env.parse url with
  | none => .done (.error (env.urlError url))
  | some u => followRedirects maxRedirects u

def buildClient : Call Unit :=
  Prog.mapError (Prog.perform Op.buildClient : Call Unit) fun e => "update http client build: ".toList ++ e

/-- What `fetch_text` and `download_to_file` begin with. -/
def HttpEnv.get (env : HttpEnv) (verb url : Text) : Call Response :=
  if isTrustedReleaseAssetUri url = false then .done (.error ("untrusted update URL: ".toList ++ url))
  else
    buildClient.andThen fun _ =>
      ((env.send url).mapError fun e => "update ".toList ++ verb ++ [' '] ++ url ++ ": ".toList ++ e).andThen fun last =>
        if ¬(200 ≤ last.2.status ∧ last.2.status < 300) then
          .done (.error ("update ".toList ++ verb ++ [' '] ++ url ++ " returned HTTP ".toList ++
            env.statusText last.2.status))
        else if isTrustedReleaseAssetUri last.1.text = false then
          .done (.error ("update ".toList ++ verb ++ " redirected to untrusted host: ".toList ++ last.1.text))
        else .done (.ok last.2)

def HttpEnv.fetchText (env : HttpEnv) (url : Text) : Call Text :=
  (env.get "fetch".toList url).andThen fun response =>
    match response.failure with
    | some e => .done (.error ("update fetch read ".toList ++ url ++ ": ".toList ++ e))
    | none => .done (.ok (env.decodeText response))

/-! ## Files -/

def parent (p : Platform) (path : Text) : Option Text :=
  let trimmed := path.rdropWhile p.isSep
  if trimmed = [] then none
  else
    let dir := trimmed.rdropWhile fun c => !p.isSep c
    some (if dir.all p.isSep then dir else dir.rdropWhile p.isSep)

def hexDigit (n : Nat) : Char := Nat.digitChar n
def hexEncode (bytes : Bytes) : Text := bytes.flatMap fun b => [hexDigit (b.toNat / 16), hexDigit (b.toNat % 16)]

abbrev ProgressHook := Nat → Option Nat → List Event

def publishAll : List Event → Prog Op Resp Unit
  | [] => .done ()
  | e :: es => (Prog.perform (Op.publish e)).bind fun _ => publishAll es

def HttpEnv.io (env : HttpEnv) (op : Text) (path : Text) (call : Call Unit) : Call Unit :=
  call.mapError fun e => "update ".toList ++ op ++ [' '] ++ env.debugPath path ++ ": ".toList ++ e

def HttpEnv.writeChunks (env : HttpEnv) (url path : Text) (progress : ProgressHook) (response : Response) :
    List Bytes → Nat → Call Unit
  | [], _ =>
    (Prog.perform (Op.next path)).bind fun _ =>
      match response.failure with
      | some e => .done (.error ("update download chunk ".toList ++ url ++ ": ".toList ++ e))
      | none => .done (.ok ())
  | bytes :: chunks, written =>
    (Prog.perform (Op.next path)).bind fun _ =>
      (env.io "write".toList path (Prog.perform (Op.write path bytes))).andThen fun _ =>
        let written := saturatingAdd written bytes.length
        (publishAll (progress written response.contentLength)).bind fun _ =>
          env.writeChunks url path progress response chunks written

def HttpEnv.downloadToFile (env : HttpEnv) (url path : Text) (progress : ProgressHook) : Call Text :=
  (env.get "download".toList url).andThen fun response =>
    (match parent env.platform path with
      | some dir => env.io "mkdir".toList dir (Prog.perform (Op.createDirAll dir))
      | none => .done (.ok ())).andThen fun _ =>
      (env.io "create".toList path (Prog.perform (Op.create path))).andThen fun _ =>
        (env.writeChunks url path progress response response.chunks 0).andThen fun _ =>
          (env.io "flush".toList path (Prog.perform (Op.flush path))).andThen fun _ =>
            .done (.ok (hexEncode (env.sha256 response.chunks.flatten)))

/-! ## Where requests go -/

abbrev Answers := (op : Op) → Resp op

def Redirects (T : Url → Prop) : (op : Op) → Resp op → Prop
  | .send _, r => ∀ target, r = .redirect target → T target
  | _, _ => True

def Url.Trusted (u : Url) : Prop := u.scheme = .https ∧ AllowedHost u.host

instance (u : Url) : Decidable u.Trusted := inferInstanceAs (Decidable (_ ∧ _))

/-- Every request of every run goes to the update channel, if servers redirect to `T`. -/
def TalksOnlyToGithub {α : Type} (T : Url → Prop) (p : Prog Op Resp α) : Prop :=
  ∀ os : List Answers, (∀ o ∈ os, ∀ op, Redirects T op (o op)) → ∀ u, Op.send u ∈ (p.exec Prog.record os []).2 → u.Trusted

/-- The first request goes where the guard says, and servers redirect to the update channel. -/
def GoesToGithub (env : HttpEnv) (T : Url → Prop) (url : Text) : Prop :=
  (PlainAuthority (url.drop 8) ∨ ∀ host, clientHost env.hosts url = some host → AllowedHost host) ∧
    ∀ target, T target → target.scheme = .other ∨ target.Trusted

variable {reply : Reply} {u : Url} {α : Type} {T : Url → Prop} {env : HttpEnv}

section Requests
variable {url : Text}

def Op.Trusted (op : Op) : Prop := ∀ u, op = .send u → u.Trusted

abbrev Safe {α : Type} (T : Url → Prop) (p : Prog Op Resp α) : Prop := p.Within Op.Trusted (Redirects T) fun _ => True

theorem Safe.andThen {β : Type} {p : Call α} {f : α → Call β} (hp : Safe T p) (hf : ∀ a, Safe T (f a)) :
    Safe T (p.andThen f) := by
  refine hp.bind fun r _ => ?_
  rcases r with e | a
  · trivial
  · exact hf a

theorem Safe.mapError {p : Call α} {f : Text → Text} (hp : Safe T p) : Safe T (p.mapError f) := hp.bind fun _ _ => trivial

theorem Safe.perform (op : Op) (h : ∀ u, op ≠ .send u) : Safe T (Prog.perform op) :=
  (Prog.Within.perform fun u hu => absurd hu (h u)).conseq fun _ _ => trivial

theorem safe_followRedirects (hT : ∀ target, T target → target.scheme = .other ∨ target.Trusted) (remaining : Nat)
    (hu : u.scheme = .other ∨ u.Trusted) : Safe T (followRedirects remaining u) := by
  have hrequest : ∀ {onRedirect : Url → Call (Url × Response)} {u : Url}, (∀ target, T target → Safe T (onRedirect target)) →
      (u.scheme = .other ∨ u.Trusted) → Safe T (request onRedirect u) := by
    intro onRedirect u hnext hu
    unfold request
    split
    · trivial
    next hscheme =>
    refine Prog.Within.bind (Prog.Within.perform ?_) fun r hr => ?_
    · rintro u' ⟨⟩
      exact hu.resolve_left hscheme
    · rcases r with e | target | r
      · trivial
      · exact hnext target (hr target rfl)
      · trivial
  induction remaining generalizing u with
  | zero => exact hrequest (fun _ _ => trivial) hu
  | succ remaining ih => exact hrequest (fun target ht => ih (hT target ht)) hu

theorem safe_buildClient : Safe T buildClient := Safe.mapError (Safe.perform _ nofun)

theorem safe_get {verb : Text} (h : isTrustedReleaseAssetUri url = false ∨ clientHost env.hosts url = none ∨ GoesToGithub env T url) :
    Safe T (env.get verb url) := by
  unfold HttpEnv.get
  split
  · trivial
  next hguard =>
  rw [Bool.not_eq_false] at hguard
  refine safe_buildClient.andThen fun _ => Safe.andThen (Safe.mapError ?_) fun last => ?_
  · unfold HttpEnv.send HttpEnv.parse
    rcases hhost : clientHost env.hosts url with _ | host
    · trivial
    · obtain ⟨hfirst, hT⟩ := (h.resolve_left (by simp [hguard])).resolve_left (by simp [hhost])
      refine safe_followRedirects hT maxRedirects (.inr ⟨rfl, ?_⟩)
      rcases hfirst with hplain | hallowed
      · obtain ⟨rest, rfl⟩ := https_of_isTrusted hguard
        exact allowedHost_of_isTrusted hguard hplain hhost
      · exact hallowed host hhost
  · split_ifs <;> trivial

theorem safe_downloadToFile {path : Text} {progress : ProgressHook}
    (h : isTrustedReleaseAssetUri url = false ∨ clientHost env.hosts url = none ∨ GoesToGithub env T url) :
    Safe T (env.downloadToFile url path progress) := by
  have hio : ∀ {name path : Text} {op : Op} (call : Call Unit), Safe T call → Safe T (env.io name path call) :=
    fun call hcall => hcall.mapError
  have hpublish : ∀ es, Safe T (publishAll es) := fun es => by
    induction es with
    | nil => trivial
    | cons e es ih => exact Prog.Within.bind (Safe.perform (.publish e) nofun) fun _ _ => ih
  have hwrite : ∀ response chunks written, Safe T (env.writeChunks url path progress response chunks written) := by
    intro response chunks
    induction chunks with
    | nil =>
      intro written
      refine Prog.Within.bind (Safe.perform (.next path) nofun) fun _ _ => ?_
      split <;> trivial
    | cons bytes chunks ih =>
      intro written
      refine Prog.Within.bind (Safe.perform (.next path) nofun) fun _ _ => ?_
      exact Safe.andThen (Safe.mapError (Safe.perform _ nofun)) fun _ => Prog.Within.bind (hpublish _) fun _ _ => ih _
  refine (safe_get h).andThen fun response => Safe.andThen ?_ fun _ => ?_
  · split
    · exact Safe.mapError (Safe.perform _ nofun)
    · trivial
  refine Safe.andThen (Safe.mapError (Safe.perform _ nofun)) fun _ => ?_
  refine (hwrite response _ 0).andThen fun _ => ?_
  exact Safe.andThen (Safe.mapError (Safe.perform _ nofun)) fun _ => trivial

theorem safe_fetchText (h : isTrustedReleaseAssetUri url = false ∨ clientHost env.hosts url = none ∨ GoesToGithub env T url) :
    Safe T (env.fetchText url) := by
  refine (safe_get h).andThen fun response => ?_
  split <;> trivial

def answering (reply : Reply) : Answers
  | .send _ => reply
  | .read _ => .ok []
  | .next _ => ()
  | .track _ => ()
  | .disarm => ()
  | .publish _ => ()
  | .buildClient => .ok ()
  | .createDirAll _ => .ok ()
  | .create _ => .ok ()
  | .write _ _ => .ok ()
  | .flush _ => .ok ()
  | .openFile _ => .ok ()

theorem redirects_answering (h : ∀ target, reply = .redirect target → T target) (op : Op) :
    Redirects T op (answering reply op) := by
  rcases op
  case send => exact h
  all_goals trivial

theorem sends_request {onRedirect : Url → Call (Url × Response)} {os : List Answers} {log : List Op}
    (hu : u.scheme ≠ .other) :
    Op.send u ∈ ((request onRedirect u).exec Prog.record (answering reply :: os) log).2 := by
  unfold request
  rw [if_neg hu]
  have hmem : Op.send u ∈ log ++ [Op.send u] := List.mem_append_right log List.mem_cons_self
  rw [Prog.perform_bind, Prog.exec]
  exact Prog.subset_exec_record hmem

theorem sends_get {verb : Text} (hguard : isTrustedReleaseAssetUri url = true)
    (hparse : env.parse url = some u) (hu : u.scheme ≠ .other) :
    Op.send u ∈ ((env.get verb url).exec Prog.record (List.replicate 3 (answering reply)) []).2 ∧
      ∀ target, reply = .redirect target → target.scheme ≠ .other →
        Op.send target ∈ ((env.get verb url).exec Prog.record (List.replicate 3 (answering reply)) []).2 := by
  have hsub : ((followRedirects maxRedirects u).exec Prog.record (List.replicate 2 (answering reply)) [.buildClient]).2 ⊆
      ((env.get verb url).exec Prog.record (List.replicate 3 (answering reply)) []).2 := by
    have hsend : env.send url = followRedirects maxRedirects u := by
      unfold HttpEnv.send
      rw [hparse]
    rw [← hsend]
    unfold HttpEnv.get
    rw [if_neg (by simp [hguard])]
    exact List.Subset.trans Prog.exec_record_subset_bind Prog.exec_record_subset_bind
  refine ⟨hsub (sends_request hu), ?_⟩
  rintro target rfl ht
  refine hsub ?_
  rw [maxRedirects, followRedirects, request, if_neg hu]
  exact sends_request ht

end Requests

/-! ## When only the update channel is asked -/

section Iff
variable {url : Text}

theorem goesToGithub_of_talks {p : Call α}
    (hget : ∃ (verb : Text) (f : Response → Call α), p = (env.get verb url).andThen f) (h : TalksOnlyToGithub T p) :
    isTrustedReleaseAssetUri url = false ∨ clientHost env.hosts url = none ∨ GoesToGithub env T url := by
  obtain ⟨verb, f, rfl⟩ := hget
  rw [or_iff_not_imp_left, or_iff_not_imp_left, Bool.not_eq_false]
  intro hguard hhost
  obtain ⟨host, hhost⟩ := Option.ne_none_iff_exists'.1 hhost
  have hparse : env.parse url = some ⟨.https, host, env.spelling url⟩ := by
    rw [HttpEnv.parse, hhost, Option.map_some]
  have hall : ∀ reply, (∀ target, reply = .redirect target → T target) → ∀ u,
      Op.send u ∈ ((env.get verb url).exec Prog.record (List.replicate 3 (answering reply)) []).2 → u.Trusted := by
    intro reply hreply u hu
    refine h _ (fun o ho op => ?_) u (Prog.exec_record_subset_bind hu)
    rw [List.eq_of_mem_replicate ho]
    exact redirects_answering hreply op
  refine ⟨.inr fun host' hhost' => ?_, fun target ht => ?_⟩
  · have hu := hall (.failed []) nofun _ (sends_get hguard hparse nofun).1
    rw [hhost] at hhost'
    cases hhost'
    exact hu.2
  · by_cases hother : target.scheme = .other
    · exact .inl hother
    · refine .inr (hall (.redirect target) ?_ target ((sends_get hguard hparse nofun).2 target rfl hother))
      rintro _ ⟨⟩
      exact ht

theorem Safe.talksOnlyToGithub {p : Prog Op Resp α} (hp : Safe T p) : TalksOnlyToGithub T p :=
  fun _ hos u hu => hp.exec hos (fun _ hnil => absurd hnil List.not_mem_nil) _ hu u rfl

end Iff

def HttpEnv.verbatim : HttpEnv where
  hosts := .verbatim
  spelling := id
  urlError := id
  statusText := fun n => Nat.toDigits 10 n
  decodeText := fun _ => []
  debugPath := id
  sha256 := id
  platform := .posix

def evilCom : Text := ['e', 'v', 'i', 'l', '.', 'c', 'o', 'm']

/-- **Only the update channel is asked** exactly if the guard refuses the address, or the client cannot read it, or its
first request goes to the update channel and so do all redirects. -/
theorem talksOnlyToGithub_iff (env : HttpEnv) (T : Url → Prop) (url : Text) : (TalksOnlyToGithub T (env.fetchText url) ↔
      isTrustedReleaseAssetUri url = false ∨ clientHost env.hosts url = none ∨ GoesToGithub env T url) ∧
    ∀ (path : Text) (progress : ProgressHook), TalksOnlyToGithub T (env.downloadToFile url path progress) ↔
      isTrustedReleaseAssetUri url = false ∨ clientHost env.hosts url = none ∨ GoesToGithub env T url :=
  ⟨⟨goesToGithub_of_talks ⟨_, _, rfl⟩, fun h => (safe_fetchText h).talksOnlyToGithub⟩,
    fun _ _ => ⟨goesToGithub_of_talks ⟨_, _, rfl⟩, fun h => (safe_downloadToFile h).talksOnlyToGithub⟩⟩

/-- User information that the guard takes for a host, and a redirect: both lead to another host. -/
theorem talksOnlyToGithub_evil :
    ¬ TalksOnlyToGithub (fun _ => False) (HttpEnv.verbatim.fetchText "https://github.com:x@evil.com/a".toList) ∧
      ¬ TalksOnlyToGithub (· = ⟨.https, evilCom, "https://evil.com/a".toList⟩)
        (HttpEnv.verbatim.fetchText "https://github.com/a".toList) := by
  constructor
  · intro h
    rcases goesToGithub_of_talks ⟨_, _, rfl⟩ h with hguard | hhost | ⟨hplain | hhost, -⟩
    · revert hguard
      decide +kernel
    · revert hhost
      decide +kernel
    · revert hplain
      decide +kernel
    · exact absurd (hhost evilCom (by decide +kernel)) (by decide)
  · intro h
    rcases goesToGithub_of_talks ⟨_, _, rfl⟩ h with hguard | hhost | ⟨-, hT⟩
    · revert hguard
      decide +kernel
    · revert hhost
      decide +kernel
    · exact absurd (hT _ rfl) (by decide)

end LetsFlutSsh.Update
