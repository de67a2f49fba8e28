import LetsFlutSsh.WebDav.Digest
import LetsFlutSsh.Lib.Run
import LetsFlutSsh.Lib.Threads
import Mathlib.Data.List.Nodup

/-!
# Requests of a WebDAV client

Requests run side by side and share the digest state.

* `applyAuth`, `transmit`, `send` : one request, with the redirects that the client follows and its retry behind a challenge;
* `step` : a request begins, or does its next operation;
* `handedOut`, `sentCounts` : the nonce counts of the headers that were built and that were sent;
* `CountsFresh`, `Fresh` : no count is used again, and when a challenge may be stored and a request be redirected;
* `countsFresh_of_fresh` : counts are never used again in runs of such steps.
-/

namespace LetsFlutSsh.WebDav
open Lib List

/-! ## One request -/

/-- What the client reads of a response; a header that is no visible ASCII counts as missing. -/
structure Response where
  status : Nat
  wwwAuthenticate : Option String

/-- The challenge of a 401; `parse` always answers. -/
def Response.challenge (r : Response) : Option DigestChallenge :=
  r.wwwAuthenticate.bind fun text => (DigestChallenge.parse text).toOption.join

structure Target where
  path : String
  query : Option String

/-- `uri_path_and_query`. -/
def Target.requestUri (url : Target) : String := url.query.elim url.path fun q => url.path ++ "?" ++ q

inductive Reply where
  | failed (e : String)
  /-- A redirect that the HTTP library follows, and whether it stays on the host and port. -/
  | redirect (sameHost : Bool)
  | response (r : Response)

inductive AuthHeader where
  | plain (value : String)
  | digest (header : DigestHeader)

/-- The operations of a request on what it shares with others, and on the network. -/
inductive Op where
  | hasChallenge
  | buildResponse (method requestUri : String)
  | send (header : Option AuthHeader)
  | setChallenge (c : DigestChallenge)

def Op.Resp : Op → Type
  | .hasChallenge => Bool
  | .buildResponse _ _ => Except String DigestHeader
  | .send _ => Reply
  | .setChallenge _ => Unit

/-- The credentials of a client, and what it uses of other libraries. -/
structure Client where
  creds : Credentials
  md5Hex : String → String
  base64 : String → String

abbrev Request := Prog Op Op.Resp

/-- `HeaderValue::from_str` accepts the text. -/
def isHeaderValue (text : String) : Bool := text.toList.all fun c => c = '\t' || (32 ≤ c.toNat && c.toNat ≠ 127)

def checkHeader (header : AuthHeader) (text : String) : Except String (Option AuthHeader) :=
  if isHeaderValue text then .ok (some header) else .error "auth header: failed to parse header value"

def headerValueBasicOrBearer (client : Client) : Except String String :=
  match client.creds.method with
  | .basic => .ok ("Basic " ++ client.base64 (client.creds.username.getD "" ++ ":" ++ client.creds.passwordOrToken))
  | .bearer => .ok ("Bearer " ++ client.creds.passwordOrToken)
  | .digest => .error "digest header needs challenge context"

/-- What `apply_auth` makes of a built header. -/
def stamp : Except String DigestHeader → Except String (Option AuthHeader)
  | .error e => .error e
  | .ok h => checkHeader (.digest h) h.text

def applyAuth (client : Client) (method : String) (url : Target) : Request (Except String (Option AuthHeader)) :=
  match client.creds.method with
  | .digest =>
    .call .hasChallenge fun present =>
      if !present then .done (.ok none) else .call (.buildResponse method url.requestUri) fun built => .done (stamp built)
  | _ => .done ((headerValueBasicOrBearer client).bind fun value => checkHeader (.plain value) value)

def maxRedirects : Nat := 10

/-- `RequestBuilder::send`. A redirect is followed with the header it came with, unless it leads to another host. -/
def transmit : Nat → Option AuthHeader → Request (Except String Response)
  | remaining, header =>
    .call (.send header) fun
      | .failed e => .done (.error e)
      | .response r => .done (.ok r)
      | .redirect sameHost =>
        match remaining with
        | 0 => .done (.error "too many redirects")
        | remaining + 1 => transmit remaining (if sameHost then header else none)

def send (client : Client) (method : String) (url : Target) : Request (Except String Response) :=
  (applyAuth client method url).andThen fun header =>
    (transmit maxRedirects header).bind fun
      | .error e => .done (.error ("send: " ++ e))
      | .ok response =>
        if response.status = 401 ∧ client.creds.method = .digest then
          match response.challenge with
          | none => .done (.error "401 without parseable Digest challenge")
          | some parsed =>
            .call (.setChallenge parsed) fun _ =>
              (applyAuth client method url).andThen fun header =>
                (transmit maxRedirects header).bind fun
                  | .error e => .done (.error ("send retry: " ++ e))
                  | .ok response => .done (.ok response)
        else .done (.ok response)

/-! ## Requests side by side -/

/-- What is random, and what the network answers. -/
structure Outcome where
  cnonce : String
  reply : Reply

def perform (client : Client) (o : Outcome) (op : Op) (s : DigestState) : op.Resp × DigestState :=
  match op with
  | .hasChallenge => (s.hasChallenge, s)
  | .buildResponse method uri => s.buildResponse client.md5Hex client.creds method uri o.cnonce
  | .send _ => (o.reply, s)
  | .setChallenge c => ((), DigestState.setChallenge c)

abbrev System := Threads Op Op.Resp DigestState (Except String Response)

def init : System := { shared := none }

inductive Step where
  | request (method : String) (url : Target)
  | act (i : Nat) (o : Outcome)

def step (client : Client) (s : System) : Step → Option System
  | .request method url => some (s.spawn (send client method url))
  | .act i o => s.act (perform client) i o

abbrev LogEntry := Threads.Entry Op Op.Resp DigestState

def builtBy : (op : Op) → op.Resp → List (String × Nat)
  | .buildResponse _ _, .ok header => header.count.toList
  | _, _ => []

def sentBy : Op → List (String × Nat)
  | .send (some (.digest header)) => header.count.toList
  | _ => []

def handedOut (log : List LogEntry) : List (String × Nat) := log.flatMap fun e => builtBy e.op e.answer

def sentCounts (log : List LogEntry) : List (String × Nat) := log.flatMap fun e => sentBy e.op

/-- **No count is used again**: no two requests carry one, and those of a nonce go up. -/
structure CountsFresh (log : List LogEntry) : Prop where
  sent : (sentCounts log).Nodup
  increasing : (handedOut log).Pairwise fun a b => a.1 = b.1 → a.2 < b.2

/-- A challenge is stored whose nonce no count was handed out for, or which makes no counts; and no request that carries a
count is redirected on its host. -/
def Fresh (s : System) : Step → Prop
  | .request _ _ => True
  | .act i o =>
    (∀ c next, s.progs[i]? = some (.call (.setChallenge c) next) → c.Counts → ∀ count ∈ handedOut s.log, count.1 ≠ c.nonce) ∧
      ∀ header next, s.progs[i]? = some (.call (.send header) next) → o.reply = .redirect true → sentBy (.send header) = []

/-! ## A request sends what it built -/

def noteCounts (q : List (String × Nat) × List (String × Nat)) (op : Op) (r : op.Resp) :
    List (String × Nat) × List (String × Nat) :=
  (q.1 ++ builtBy op r, q.2 ++ sentBy op)

def SentOfBuilt (q : List (String × Nat) × List (String × Nat)) : Prop := q.2.Sublist q.1

/-- A redirect does not make the client send a count again. -/
def NotResent (_ : List (String × Nat) × List (String × Nat)) : (op : Op) → op.Resp → Prop
  | .send header, r => r = .redirect true → sentBy (.send header) = []
  | _, _ => True

abbrev SendsBuilt {α : Type} (p : Request α) (E : α → List (String × Nat) × List (String × Nat) → Prop)
    (q : List (String × Nat) × List (String × Nat)) : Prop :=
  p.Obeys noteCounts (fun q _ => SentOfBuilt q) NotResent E q

def headerCounts : Except String (Option AuthHeader) → List (String × Nat)
  | .ok header => sentBy (.send header)
  | .error _ => []

theorem headerCounts_stamp (method uri : String) (built : Except String DigestHeader) :
    (headerCounts (stamp built)).Sublist (builtBy (.buildResponse method uri) built) := by
  rcases built with e | header
  · exact Sublist.refl []
  · unfold stamp checkHeader
    dsimp only
    split_ifs
    · exact Sublist.refl _
    · exact nil_sublist _

variable {client : Client} {method : String} {url : Target}

theorem applyAuth_sendsBuilt {q : List (String × Nat) × List (String × Nat)} (hq : SentOfBuilt q) :
    SendsBuilt (applyAuth client method url) (fun r q => (q.2 ++ headerCounts r).Sublist q.1) q := by
  have hnil : (q.2 ++ []).Sublist q.1 := by rwa [append_nil]
  have hplain : ∀ value : Except String String,
      (q.2 ++ headerCounts (value.bind fun value => checkHeader (.plain value) value)).Sublist q.1 := by
    intro value
    rcases value with e | value
    · exact hnil
    · change (q.2 ++ headerCounts (checkHeader _ _)).Sublist q.1
      unfold checkHeader
      split_ifs <;> exact hnil
  unfold applyAuth
  split
  · refine ⟨hq, fun present _ => ?_⟩
    have hseen : noteCounts q .hasChallenge present = q := by
      simp [noteCounts, builtBy, sentBy]
    rw [hseen]
    cases present with
    | false => exact hnil
    | true =>
      refine ⟨hq, fun built _ => ?_⟩
      exact hnil.append (headerCounts_stamp method url.requestUri built)
  · exact hplain _

theorem transmit_sendsBuilt (remaining : Nat) {header : Option AuthHeader} {q : List (String × Nat) × List (String × Nat)}
    (hq : (q.2 ++ headerCounts (.ok header)).Sublist q.1) :
    SendsBuilt (transmit remaining header) (fun _ q => SentOfBuilt q) q := by
  induction remaining generalizing header q with
  | zero =>
    rw [transmit]
    refine ⟨(sublist_append_left _ _).trans hq, fun r _ => ?_⟩
    have hsent : SentOfBuilt (noteCounts q (.send header) r) := by
      change (q.2 ++ sentBy (.send header)).Sublist (q.1 ++ [])
      rwa [append_nil]
    rcases r with e | sameHost | r <;> exact hsent
  | succ remaining ih =>
    rw [transmit]
    refine ⟨(sublist_append_left _ _).trans hq, fun r hr => ?_⟩
    have hsent : SentOfBuilt (noteCounts q (.send header) r) := by
      change (q.2 ++ sentBy (.send header)).Sublist (q.1 ++ [])
      rwa [append_nil]
    rcases r with e | sameHost | r
    · exact hsent
    · -- A header without a count goes along, or none.
      refine ih ?_
      have hnone : headerCounts (.ok (if sameHost then header else none)) = [] := by
        cases sameHost with
        | false => rfl
        | true => exact hr rfl
      rwa [hnone, append_nil]
    · exact hsent

theorem send_sendsBuilt : SendsBuilt (send client method url) (fun _ q => SentOfBuilt q) ([], []) := by
  have hbefore : ∀ {q : List (String × Nat) × List (String × Nat)} {r : Except String (Option AuthHeader)},
      (q.2 ++ headerCounts r).Sublist q.1 → SentOfBuilt q :=
    fun h => (sublist_append_left _ _).trans h
  refine (applyAuth_sendsBuilt (q := ([], [])) (Sublist.refl [])).andThen (fun _ _ h => hbefore h) fun header q hq => ?_
  refine (transmit_sendsBuilt maxRedirects hq).bind fun r q hq => ?_
  rcases r with e | response
  · exact hq
  dsimp only
  split_ifs
  · rcases response.challenge with _ | parsed
    · exact hq
    · refine ⟨hq, fun _ _ => ?_⟩
      have hstored : SentOfBuilt (noteCounts q (.setChallenge parsed) ()) := by
        change (q.2 ++ []).Sublist (q.1 ++ [])
        rwa [append_nil, append_nil]
      refine (applyAuth_sendsBuilt hstored).andThen (fun _ _ h => hbefore h) fun header q hq => ?_
      refine (transmit_sendsBuilt maxRedirects hq).bind fun r q hq => ?_
      rcases r with e | response <;> exact hq
  · exact hq

/-! ## Every order of requests -/

section
variable {s t : System} {l : Step}

/-- No count was handed out beyond the one in use, and counts went up so far. -/
structure Counted (s : System) : Prop where
  tracks : Threads.Tracks noteCounts ([], []) (fun _ p => SendsBuilt p fun _ q => SentOfBuilt q) s
  below : ∀ inner, s.shared = some inner → inner.challenge.Counts →
    ∀ count ∈ handedOut s.log, count.1 = inner.challenge.nonce → count.2 ≤ inner.nc
  increasing : (handedOut s.log).Pairwise fun a b => a.1 = b.1 → a.2 < b.2

theorem counted_init : Counted init :=
  ⟨Threads.tracks_init none, nofun, List.Pairwise.nil⟩

theorem handedOut_concat (log : List LogEntry) (e : LogEntry) : handedOut (log ++ [e]) = handedOut log ++ builtBy e.op e.answer := by
  rw [handedOut, flatMap_append, flatMap_singleton]
  rfl

theorem perform_hands (client : Client) (o : Outcome) (op : Op) (s : DigestState) :
    builtBy op (perform client o op s).1 = [] ∨ ∃ inner, s = some inner ∧ inner.challenge.Counts ∧
      builtBy op (perform client o op s).1 = [(inner.challenge.nonce, inner.nc + 1)] ∧
      (perform client o op s).2 = some { inner with nc := inner.nc + 1 } := by
  cases op with
  | hasChallenge => exact .inl rfl
  | send header => exact .inl rfl
  | setChallenge c => exact .inl rfl
  | buildResponse method uri =>
    rcases hbuilt : (perform client o (.buildResponse method uri) s).1 with e | header
    · exact .inl rfl
    rcases hcount : header.count with _ | count
    · refine .inl ?_
      rw [builtBy, hcount]
      rfl
    · obtain ⟨inner, hs, hcounts, rfl, hafter⟩ := DigestState.buildResponse_count hbuilt hcount
      refine .inr ⟨inner, hs, hcounts, ?_, hafter⟩
      rw [builtBy, hcount]
      rfl

theorem perform_leaves {o : Outcome} {op : Op} {s : DigestState} {after : DigestStateInner}
    (h : (perform client o op s).2 = some after) :
    op = .setChallenge after.challenge ∨ ∃ inner, s = some inner ∧ after.challenge = inner.challenge ∧ inner.nc ≤ after.nc := by
  cases op with
  | hasChallenge => exact .inr ⟨after, h, rfl, Nat.le_refl _⟩
  | send header => exact .inr ⟨after, h, rfl, Nat.le_refl _⟩
  | setChallenge c =>
    cases h
    exact .inl rfl
  | buildResponse method uri => exact .inr (DigestState.buildResponse_state h)

theorem counted_step (h : Counted s) (hok : Fresh s l) (hstep : step client s l = some t) : Counted t := by
  cases l with
  | request method url =>
    cases hstep
    exact ⟨h.tracks.spawn send_sendsBuilt, h.below, h.increasing⟩
  | act i o =>
    have hact : s.act (perform client) i o = some t := hstep
    have htracks := Threads.obeys_act h.tracks hact fun op next hprog => by
      cases op with
      | send header => exact hok.2 header next hprog
      | _ => trivial
    obtain ⟨op, next, hprog, rfl⟩ := Threads.act_cases hact
    refine ⟨htracks, ?_, ?_⟩
    · intro inner hinner hcounts count hcount hnonce
      rw [handedOut_concat] at hcount
      rcases mem_append.1 hcount with hold | hnew
      · rcases perform_leaves hinner with rfl | ⟨before, hbefore, hchallenge, hle⟩
        · exact absurd hnonce (hok.1 _ next hprog hcounts count hold)
        · rw [hchallenge] at hcounts hnonce
          exact (h.below before hbefore hcounts count hold hnonce).trans hle
      · -- The count of this very operation is the one that it left.
        rcases perform_hands client o op s.shared with hnone | ⟨before, -, -, hone, hafter⟩
        · rw [hnone] at hnew
          exact absurd hnew not_mem_nil
        · rw [hone, mem_singleton] at hnew
          cases hafter.symm.trans hinner
          rw [hnew]
    · rw [handedOut_concat]
      refine pairwise_append.2 ⟨h.increasing, ?_, fun a ha b hb hnonce => ?_⟩
      · rcases perform_hands client o op s.shared with hnone | ⟨before, -, -, hone, -⟩
        · rw [hnone]
          exact List.Pairwise.nil
        · rw [hone]
          exact pairwise_singleton _ _
      · rcases perform_hands client o op s.shared with hnone | ⟨before, hbefore, hcounts, hone, -⟩
        · rw [hnone] at hb
          exact absurd hb not_mem_nil
        · rw [hone, mem_singleton] at hb
          rw [hb] at hnonce ⊢
          exact Nat.lt_succ_of_le (h.below before hbefore hcounts a ha hnonce)

theorem nodup_of_increasing {counts : List (String × Nat)} (h : counts.Pairwise fun a b => a.1 = b.1 → a.2 < b.2) : counts.Nodup :=
  h.imp fun hlt heq => absurd (hlt (congrArg Prod.fst heq)) (heq ▸ Nat.lt_irrefl _)

theorem notes_noteCounts (s : System) (i : Nat) : s.notes noteCounts ([], []) i =
    (handedOut (s.log.filter (·.thread = i)), sentCounts (s.log.filter (·.thread = i))) := by
  have hfold : ∀ (log : List LogEntry) (q : List (String × Nat) × List (String × Nat)),
      log.foldl (fun q e => noteCounts q e.op e.answer) q = (q.1 ++ handedOut log, q.2 ++ sentCounts log) := by
    intro log
    induction log with
    | nil => exact fun q => by simp [handedOut, sentCounts]
    | cons e log ih =>
      intro q
      rw [foldl_cons, ih]
      simp [noteCounts, handedOut, sentCounts]
  exact hfold _ ([], [])

theorem Counted.countsFresh (h : Counted s) : CountsFresh s.log := by
  refine ⟨nodup_iff_count_le_one.2 fun count => ?_, h.increasing⟩
  have hle : (sentCounts s.log).count count ≤ (handedOut s.log).count count := by
    refine Threads.count_le_of_threads count fun i => ?_
    have hhere : SentOfBuilt (s.notes noteCounts ([], []) i) := by
      rcases hp : s.progs[i]? with _ | p
      · rw [Threads.notes_of_unknown h.tracks.known (getElem?_eq_none_iff.1 hp)]
        exact Sublist.refl []
      · exact (h.tracks.here i p hp).here fun _ _ h => h
    rw [notes_noteCounts] at hhere
    exact hhere.count_le count
  exact hle.trans (nodup_iff_count_le_one.1 (nodup_of_increasing h.increasing) count)

end

/-- **No count is used again**, in every order of requests, redirects, challenges and retries, while no challenge is stored
whose nonce is in use and no request with a count is redirected on its host. -/
theorem countsFresh_of_fresh {client : Client} {ls : List Step} {t : System} (hfresh : Along (step client) Fresh init ls)
    (hrun : run (step client) init ls = some t) : CountsFresh t.log :=
  (run_invariant (fun _ _ _ h hok hstep => counted_step h hok hstep) counted_init hfresh hrun).countsFresh

/-! ## Two requests -/

def sampleClient : Client := { creds := ⟨.digest, some "u", "p"⟩, md5Hex := fun _ => "00", base64 := id }
def sampleUrl : Target := ⟨"/a", none⟩

def asked (nonce : String) : Outcome :=
  { cnonce := "c", reply := .response ⟨401, some ("Digest realm=\"r\", nonce=\"" ++ nonce ++ "\", qop=\"auth\"")⟩ }

def answered : Outcome := { cnonce := "c", reply := .response ⟨207, none⟩ }

def moved (sameHost : Bool) : Outcome := { cnonce := "c", reply := .redirect sameHost }

/-- Two requests begin before either has a challenge; one is moved, each is asked, and then retries. -/
def bothAsked (first second : String) : List Step :=
  [.request "GET" sampleUrl, .request "GET" sampleUrl, .act 0 answered, .act 1 answered, .act 0 (moved true),
    .act 0 (asked first), .act 1 (asked second)] ++
    List.replicate 4 (.act 0 answered) ++ List.replicate 4 (.act 1 answered)

def Reply.isRedirect : Reply → Bool
  | .redirect _ => true
  | _ => false

def isFresh (s : System) : Step → Bool
  | .request _ _ => true
  | .act i o =>
    match s.progs[i]? with
    | some (.call (.setChallenge c) _) => !decide c.Counts || (handedOut s.log).all fun count => count.1 ≠ c.nonce
    | some (.call (.send header) _) => sentBy (.send header) = [] || !o.reply.isRedirect
    | _ => true

theorem fresh_of_isFresh (s : System) (l : Step) (h : isFresh s l = true) : Fresh s l := by
  cases l with
  | request method url => trivial
  | act i o =>
    unfold isFresh at h
    dsimp only at h
    constructor
    · intro c next hprog hcounts count hcount
      rw [hprog] at h
      rw [Bool.or_eq_true, all_eq_true] at h
      rcases h with h | h
      · rw [decide_eq_true hcounts] at h
        cases h
      · exact of_decide_eq_true (h count hcount)
    · intro header next hprog hredirect
      rw [hprog] at h
      rw [Bool.or_eq_true, hredirect] at h
      exact of_decide_eq_true (h.resolve_right (by decide))

/-- Each request with a nonce of its own. -/
theorem countsFresh_of_fresh_asked :
    ∃ t, run (step sampleClient) init (bothAsked "n" "m") = some t ∧ sentCounts t.log = [("n", 1), ("m", 1)] ∧
      CountsFresh t.log := by
  have hsent : (run (step sampleClient) init (bothAsked "n" "m")).map (fun t => sentCounts t.log) = some [("n", 1), ("m", 1)] := by
    decide +kernel
  obtain ⟨t, hrun, hcounts⟩ := Option.map_eq_some_iff.1 hsent
  exact ⟨t, hrun, hcounts, countsFresh_of_fresh (along_of_checks fresh_of_isFresh (by decide +kernel)) hrun⟩

/-- **The same nonce twice**: the second challenge sets the count back, and both requests go out with the count one. -/
theorem count_is_reused :
    ∃ t, run (step sampleClient) init (bothAsked "n" "n") = some t ∧ sentCounts t.log = [("n", 1), ("n", 1)] ∧
      ¬CountsFresh t.log := by
  have hsent : (run (step sampleClient) init (bothAsked "n" "n")).map (fun t => sentCounts t.log) = some [("n", 1), ("n", 1)] := by
    decide +kernel
  obtain ⟨t, hrun, hcounts⟩ := Option.map_eq_some_iff.1 hsent
  refine ⟨t, hrun, hcounts, fun h => ?_⟩
  have hnodup := h.sent
  rw [hcounts] at hnodup
  exact absurd hnodup (by decide)

/-- One request with a count, redirected on its host: the header goes out a second time. -/
example : (run (step sampleClient) init ([.request "GET" sampleUrl, .act 0 answered, .act 0 (asked "n")] ++
    List.replicate 3 (.act 0 answered) ++ [.act 0 (moved true), .act 0 answered])).map (fun t => sentCounts t.log) =
      some [("n", 1), ("n", 1)] := by decide +kernel

end LetsFlutSsh.WebDav
