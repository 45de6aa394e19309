import StormDrive.JobRequest
import StormDrive.KubeAuth
import StormDrive.Text.Routing

set_option relaxedAutoImplicit false
set_option autoImplicit false

/-!
# The guard of the API

The routes of the API and what stands before them: the access that a request needs (`kubeauth.rs`),
and the guard that asks the gate for it before the handler runs (`api/mod.rs`, `api/kube.rs`).

## Main definitions

* `Api.routes` — which handler a request goes to.
* `Api.classify`, `Api.readAccess` — the access that a write and a read need.
* `Api.guard` — what the guard does with a request.
* `Api.MayDestroy` — the requests that may destroy the contents of a drive.
* `Api.AuthorisedAs` — the handler runs only when the gate let the request in for a resource.

## Main results

* `Api.destroying_authorised` — **whatever may destroy a drive's contents is authorised as a drive
  operation, a patch of a Drive resource as that, and a dry run is one**.
* `Api.patch_not_driveOperation` — a patch that joins a drive to the fleet is not a drive operation.

## Implementation notes

The router is any that follows the table of routes, and the reader of JSON texts any whose two
readings of a text agree. What the gate's review of the caller says is an input. The answer of a
handler is left out, and of an audit line all but the access, who and the decision.
-/

namespace StormDrive

open Routing

namespace KubeAuth

namespace Api

/-! ## Routes -/

/-- The handlers of the API. -/
inductive Handler
  | health | componentsFeed | wsComponents | monitorStats | metrics | listDrives | getDrive
  | forgetDrive | getDriveHealth | getDriveSlabs | getDriveSupports | scsiNotGood
  | getDriveHistory | historyStatus | systemDrives | getAssets | thermalAll | thermalLimits
  | setThermalLimits | thermalHistory | thermalOne | setLocate | locateByPath | fleetAction
  | getDrain | startDrain | cancelDrain | fleetByPath | acknowledgeHealth | setDesignation
  | designationByPath | getOvercommit | setOvercommit | overcommitByPath | getTest | startTest
  | cancelTest | testByPath | enrollDrive | getFormat | formatDrive | formatDriveByPath
  | listFormats | formatMany | listFirmware | firmwareMany | listImages | putImage | deleteImage
  | getImage | getFirmware | firmwareDrive | listShelves | getShelf | shelfLocate
  | shelfLocateByPath | formatShelf | getShelfFirmware | shelfFirmware | formatShelfByPath
  | shelfDiagnostics | shelfDiagnosticPage | shelfBayPower | topology | listHbas | listMedia
  | placement | placementOne | listJobs | createJob | getJob | cancelJob | resumeJob | listEvents
  | summary | apis | apiGroup | apiResources | listDriveResources | getDriveResource | patchDrive
  | listEnclosures | getEnclosure
  deriving DecidableEq

/-- The handlers of a path, by method. -/
abbrev Methods : Type := List (String × Handler)

def get (h : Handler) : Methods := [("GET", h)]

def post (h : Handler) : Methods := [("POST", h)]

def put (h : Handler) : Methods := [("PUT", h)]

def delete (h : Handler) : Methods := [("DELETE", h)]

def patch (h : Handler) : Methods := [("PATCH", h)]

def route (path : String) (methods : Methods) : Route Handler := ⟨pattern path, methods⟩

/-- The storage resources. -/
def kubeRoutes : List (Route Handler) :=
  [ route "/apis" (get .apis),
    route "/apis/storage.storm.io" (get .apiGroup),
    route "/apis/storage.storm.io/v1" (get .apiResources),
    route "/apis/storage.storm.io/v1/drives" (get .listDriveResources),
    route "/apis/storage.storm.io/v1/drives/{name}" (get .getDriveResource ++ patch .patchDrive),
    route "/apis/storage.storm.io/v1/enclosures" (get .listEnclosures),
    route "/apis/storage.storm.io/v1/enclosures/{name}" (get .getEnclosure) ]

/-- **The routes of the API**. -/
def routes : List (Route Handler) :=
  [ route "/api/v1/health" (get .health),
    route "/healthz" (get .health),
    route "/api/v1/components" (get .componentsFeed),
    route "/ws/components" (get .wsComponents),
    route "/api/v1/monitor" (get .monitorStats),
    route "/metrics" (get .metrics),
    route "/api/v1/drives" (get .listDrives),
    route "/api/v1/drives/{id}" (get .getDrive ++ delete .forgetDrive),
    route "/api/v1/drives/{id}/health" (get .getDriveHealth),
    route "/api/v1/drives/{id}/slabs" (get .getDriveSlabs),
    route "/api/v1/drives/{id}/supports" (get .getDriveSupports),
    route "/api/v1/scsi/not-good" (get .scsiNotGood),
    route "/api/v1/drives/{id}/history" (get .getDriveHistory),
    route "/api/v1/history" (get .historyStatus),
    route "/api/v1/system-drives" (get .systemDrives),
    route "/api/v1/assets" (get .getAssets),
    route "/api/v1/thermal" (get .thermalAll),
    route "/api/v1/thermal/limits" (get .thermalLimits ++ put .setThermalLimits),
    route "/api/v1/thermal/history" (get .thermalHistory),
    route "/api/v1/thermal/{id}" (get .thermalOne),
    route "/api/v1/drives/{id}/locate" (post .setLocate),
    route "/api/v1/drives/{id}/locate/{state}" (post .locateByPath),
    route "/api/v1/drives/{id}/fleet" (post .fleetAction),
    route "/api/v1/drives/{id}/drain" (get .getDrain ++ post .startDrain ++ delete .cancelDrain),
    route "/api/v1/drives/{id}/fleet/{action}" (post .fleetByPath),
    route "/api/v1/drives/{id}/health/acknowledge" (post .acknowledgeHealth),
    route "/api/v1/drives/{id}/designation" (post .setDesignation),
    route "/api/v1/drives/{id}/designation/{value}" (post .designationByPath),
    route "/api/v1/drives/{id}/overcommit"
      (get .getOvercommit ++ put .setOvercommit ++ post .setOvercommit),
    route "/api/v1/drives/{id}/overcommit/{value}" (post .overcommitByPath),
    route "/api/v1/drives/{id}/test" (get .getTest ++ post .startTest),
    route "/api/v1/drives/{id}/test/cancel" (post .cancelTest),
    route "/api/v1/drives/{id}/test/{kind}" (post .testByPath),
    route "/api/v1/drives/{id}/enroll" (post .enrollDrive),
    route "/api/v1/drives/{id}/format" (get .getFormat ++ post .formatDrive),
    route "/api/v1/drives/{id}/format/{block_size}" (post .formatDriveByPath),
    route "/api/v1/format" (get .listFormats ++ post .formatMany),
    route "/api/v1/firmware" (get .listFirmware ++ post .firmwareMany),
    route "/api/v1/firmware/images" (get .listImages),
    route "/api/v1/firmware/images/{name}" (put .putImage ++ delete .deleteImage ++ get .getImage),
    route "/api/v1/drives/{id}/firmware" (get .getFirmware ++ post .firmwareDrive),
    route "/api/v1/shelves" (get .listShelves),
    route "/api/v1/shelves/{key}" (get .getShelf),
    route "/api/v1/shelves/{key}/locate" (post .shelfLocate),
    route "/api/v1/shelves/{key}/locate/{state}" (post .shelfLocateByPath),
    route "/api/v1/shelves/{key}/format" (post .formatShelf),
    route "/api/v1/shelves/{key}/firmware" (get .getShelfFirmware ++ post .shelfFirmware),
    route "/api/v1/shelves/{key}/format/{block_size}" (post .formatShelfByPath),
    route "/api/v1/shelves/{key}/diagnostics" (get .shelfDiagnostics),
    route "/api/v1/shelves/{key}/diagnostics/{page}" (get .shelfDiagnosticPage),
    route "/api/v1/shelves/{key}/bays/{bay}/power" (post .shelfBayPower),
    route "/api/v1/topology" (get .topology),
    route "/api/v1/hbas" (get .listHbas),
    route "/api/v1/media" (get .listMedia),
    route "/api/v1/placement" (get .placement),
    route "/api/v1/placement/{id}" (get .placementOne),
    route "/api/v1/worker/jobs" (get .listJobs ++ post .createJob),
    route "/api/v1/worker/jobs/{id}" (get .getJob),
    route "/api/v1/worker/jobs/{id}/cancel" (post .cancelJob),
    route "/api/v1/worker/jobs/{id}/resume" (post .resumeJob),
    route "/api/v1/events" (get .listEvents),
    route "/api/v1/summary" (get .summary) ] ++ kubeRoutes

/-! ## What a request needs -/

/-- To create a drive operation. -/
def op : Access := ⟨"driveoperations", "create", none⟩

/-- The access that a write to a path needs, by the path's segments. -/
def writeAccess (method : String) : List String → Access
  | ["api", "v1", "worker", "jobs"] => op
  | "api" :: "v1" :: "worker" :: "jobs" :: id :: _ => ⟨"driveoperations", "update", some id⟩
  | ["api", "v1", "format"] | ["api", "v1", "firmware"] => op
  | "api" :: "v1" :: "firmware" :: "images" :: name :: _ =>
    ⟨"firmwareimages", if method = "DELETE" then "delete" else "create", some name⟩
  | "api" :: "v1" :: "shelves" :: _ :: "format" :: _
  | "api" :: "v1" :: "shelves" :: _ :: "firmware" :: _
  | "api" :: "v1" :: "shelves" :: _ :: "bays" :: _ => op
  | "api" :: "v1" :: "shelves" :: key :: _ => ⟨"enclosures", "update", some key⟩
  | ["api", "v1", "drives", id] =>
    ⟨"drives", if method = "DELETE" then "delete" else "update", some id⟩
  | ["api", "v1", "drives", id, "test", "cancel"] => ⟨"drives", "update", some id⟩
  | "api" :: "v1" :: "drives" :: _ :: "format" :: _
  | "api" :: "v1" :: "drives" :: _ :: "firmware" :: _
  | "api" :: "v1" :: "drives" :: _ :: "fleet" :: _
  | "api" :: "v1" :: "drives" :: _ :: "test" :: _
  | "api" :: "v1" :: "drives" :: _ :: "enroll" :: _ => op
  | "api" :: "v1" :: "drives" :: id :: _ => ⟨"drives", "update", some id⟩
  | ["apis", _, _, "drives", name] => ⟨"drives", "patch", some name⟩
  | _ => ⟨"drives", "update", none⟩

/-- **The access that a request needs**; none for a read. -/
def classify (method path : String) : Option Access :=
  if method = "GET" ∨ method = "HEAD" ∨ method = "OPTIONS" then none
  else some (writeAccess method (segments path))

/-- The resource that a path is about. -/
def readResource : List String → String
  | "api" :: "v1" :: "worker" :: _ => "driveoperations"
  | "api" :: "v1" :: "shelves" :: _ | "apis" :: _ :: _ :: "enclosures" :: _ => "enclosures"
  | "api" :: "v1" :: "firmware" :: "images" :: _ => "firmwareimages"
  | _ => "drives"

/-- The access that a read needs. -/
def readAccess (path : String) : Access := ⟨readResource (segments path), "get", none⟩

/-- Anyone may ask. -/
def isHealth (path : String) : Bool := path = "/api/v1/health" || path = "/healthz"

/-! ## The guard -/

/-- The other end of a connection. -/
structure Peer where
  tls : Bool
  client : Option ClientIdentity
  deriving DecidableEq

/-- A request: its connection, unless that is not known, its `Authorization` header, if that is
text, and its body, unless that breaks off. -/
structure HttpRequest where
  method : String
  path : String
  peer : Option Peer
  authorization : Option String
  body : Option (List UInt8)
  deriving DecidableEq

namespace HttpRequest

/-- What comes after the prefix. -/
def stripPrefix (pre s : String) : Option String :=
  if Text.startsWith s pre then some (String.ofList (s.toList.drop pre.toList.length)) else none

def bearer (req : HttpRequest) : Option String :=
  req.authorization.bind fun h => (stripPrefix "Bearer " h).orElse fun _ => stripPrefix "bearer " h

/-- The most bytes that the guard reads of a body. -/
def peekLimit : ℕ := 4 * 2 ^ 20

/-- The body, if the guard can read it. -/
def peek (req : HttpRequest) : Option (List UInt8) :=
  req.body.filter fun b => b.length ≤ peekLimit

/-- A worker job is posted. -/
def postsJob (req : HttpRequest) : Bool :=
  req.method = "POST" && trimEnd req.path = "/api/v1/worker/jobs"

end HttpRequest

/-- What the guard does: it asks the gate about a read or a write, writes an audit line, lets the
handler run for a requester, or answers itself. -/
inductive Act
  | checkRead (access : Access) (d : Decision)
  | check (access : Access) (d : Decision)
  | audit (access : Access) (who decision : String)
  | run (requester : Option Requester)
  | answer (code : ℕ)
  deriving DecidableEq

/-- A text is a dry run. -/
def dryText (serde : Serde) (text : List UInt8) : Bool :=
  (serde.value text).any JobRequest.isDry

section Guard

variable (g : Gate) (serde : Serde) (review : Except String Review) (req : HttpRequest)

/-- A read. -/
def guardRead (cred : Credential) : List Act :=
  let access := readAccess req.path
  match g.answer ⟨false, cred, access⟩ review with
  | .allowed r => [.checkRead access (.allowed r), .run (some r)]
  | .auditOnly r why => [.checkRead access (.auditOnly r why), .run (some r)]
  | .refused code who why => [.checkRead access (.refused code who why), .answer code]

/-- A write. -/
def guardWrite (cred : Credential) (access : Access) : List Act :=
  match g.answer ⟨true, cred, access⟩ review with
  | .allowed r =>
    [.check access (.allowed r), .run (some r), .audit access r.who "allowed"]
  | .auditOnly r why =>
    [.check access (.auditOnly r why), .run (some r), .audit access r.who "allowed-audit-only"]
  | .refused code who why =>
    [.check access (.refused code who why), .audit access who "refused", .answer code]

/-- What a request writes, if it is no read: a job that is a dry run is one. The other case is that
its body cannot be read. -/
def writes : Except ℕ (Option Access) :=
  match classify req.method req.path with
  | some access =>
    if req.postsJob then
      match req.peek with
      | none => .error 400
      | some text => .ok (if dryText serde text then none else some access)
    else .ok (some access)
  | none => .ok none

/-- **What the guard does with a request**. -/
def guard : List Act :=
  if isHealth req.path then [.run none]
  else
    let tls := req.peer.any Peer.tls
    let cred : Credential := ⟨req.bearer, req.peer.bind Peer.client⟩
    if !tls && !g.anonymous then [.answer 403]
    else match writes serde req with
      | .error code => [.answer code]
      | .ok none => guardRead g review req cred
      | .ok (some access) =>
        if req.postsJob then
          match req.peek with
          | none => [.answer 400]
          | some text =>
            if dryText serde text then [.run none] else guardWrite g review cred access
        else guardWrite g review cred access

end Guard

/-! ## Authorised requests -/

/-- A decision lets the request in; one that is only for the audit does so in audit mode. -/
def LetsIn (g : Gate) : Decision → Prop
  | .allowed _ => True
  | .auditOnly _ _ => g.enforce = false
  | .refused _ _ _ => False

/-- The handler runs only after the gate was asked about a write like this and let the request
in. -/
def AuthorisedAs (g : Gate) (asked : Access → Prop) (acts : List Act) : Prop :=
  ∀ pre requester post, acts = pre ++ .run requester :: post →
    ∃ access d, .check access d ∈ pre ∧ asked access ∧ LetsIn g d

/-- A drive operation. -/
def IsDriveOperation (access : Access) : Prop := access.resource = "driveoperations"

/-- A patch of the Drive resource. -/
def IsDrivePatch (access : Access) : Prop := access.resource = "drives" ∧ access.verb = "patch"

/-- The handlers that may destroy the contents of a drive. -/
def Handler.destroys : Handler → Bool
  | .createJob | .resumeJob | .formatDrive | .formatDriveByPath | .formatMany | .formatShelf
  | .formatShelfByPath | .startTest | .testByPath | .enrollDrive | .fleetAction | .fleetByPath
  | .patchDrive | .shelfBayPower | .firmwareDrive | .firmwareMany | .shelfFirmware => true
  | _ => false

/-- A request that a handler gets may destroy the contents of a drive: a job does unless it is a dry
run. -/
def MayDestroy (serde : Serde) (h : Handler) (req : HttpRequest) : Prop :=
  h.destroys = true ∧ (h = .createJob → ∃ text r, req.body = some text ∧
    serde.request text = some r ∧ r.dryRun = false)

/-! ## What the guard lets through -/

section Guard

variable {g : Gate} {serde : Serde} {review : Except String Review} {req : HttpRequest}

/-- Only an audit lets a write in for the audit. -/
lemma enforce_of_auditOnly {cred : Credential} {access : Access} {r : Requester} {why : String}
    (h : g.answer ⟨true, cred, access⟩ review = .auditOnly r why) : g.enforce = false := by
  have refuse : ∀ code who why', g.refuse code who why' = .auditOnly r why → g.enforce = false := by
    intro code who why' h
    cases enforce : g.enforce with
    | false => rfl
    | true =>
      rw [Gate.refuse, enforce] at h
      cases h
  have after : ∀ who asRequester, g.afterReview access who asRequester review = .auditOnly r why →
      g.enforce = false := by
    intro who asRequester h
    rcases review with e | u | ⟨u, why'⟩ | why'
    · exact refuse _ _ _ h
    · cases h
    · cases enforce : g.enforce with
      | false => rfl
      | true =>
        simp only [Gate.afterReview, enforce] at h
        cases h
    · exact refuse _ _ _ h
  simp only [Gate.answer, Gate.plan, Gate.check] at h
  cases token : cred.token with
  | some b =>
    cases admin : g.isAdmin b with
    | true =>
      simp only [token, admin] at h
      cases h
    | false =>
      simp only [token, admin] at h
      exact after _ _ h
  | none =>
    cases cert : cred.cert with
    | some c =>
      simp only [token, cert] at h
      exact after _ _ h
    | none =>
      simp only [token, cert] at h
      exact refuse _ _ _ h

/-- After one question the handler runs, with an audit line behind. -/
lemma authorisedAs_run {asked : Access → Prop} {access : Access} {d : Decision} {r : Requester}
    {verdict : String} (is : asked access) (lets : LetsIn g d) :
    AuthorisedAs g asked [.check access d, .run (some r), .audit access r.who verdict] := by
  intro pre requester post same
  match pre with
  | [] => exact absurd (List.cons.inj same).1 nofun
  | first :: pre =>
    obtain ⟨rfl, -⟩ := List.cons.inj same
    exact ⟨access, d, List.mem_cons_self, is, lets⟩

/-- Where no handler runs, none runs unasked. -/
lemma authorisedAs_of_not_mem {asked : Access → Prop} {acts : List Act}
    (none : ∀ requester, .run requester ∉ acts) : AuthorisedAs g asked acts := by
  intro pre requester post same
  apply absurd _ (none requester)
  rw [same]
  exact List.mem_append_right _ List.mem_cons_self

/-- **A write runs only when the gate let it in**. -/
lemma guardWrite_authorised {asked : Access → Prop} {cred : Credential} {access : Access}
    (is : asked access) : AuthorisedAs g asked (guardWrite g review cred access) := by
  unfold guardWrite
  split
  · next r _ => exact authorisedAs_run is trivial
  · next r why h => exact authorisedAs_run is (enforce_of_auditOnly h)
  · apply authorisedAs_of_not_mem
    simp

/-- The guard asks about the write, unless it takes the request for a dry run. -/
lemma guard_authorised {asked : Access → Prop} {access : Access}
    (needs : classify req.method req.path = some access) (is : asked access)
    (open_ : isHealth req.path = false)
    (dry : req.postsJob = true → ∀ text ∈ req.peek, dryText serde text = false) :
    AuthorisedAs g asked (guard g serde review req) := by
  have stops : ∀ code, AuthorisedAs g asked [.answer code] := by
    intro code
    apply authorisedAs_of_not_mem
    simp
  cases posts : req.postsJob with
  | false =>
    simp only [guard, open_, writes, needs, posts, Bool.false_eq_true, if_false]
    split
    · exact stops 403
    · exact guardWrite_authorised is
  | true =>
    cases peek : req.peek with
    | none =>
      simp only [guard, open_, writes, needs, posts, peek, Bool.false_eq_true, if_false]
      split
      · exact stops 403
      · exact stops 400
    | some text =>
      have wet := dry posts text peek
      simp only [guard, open_, writes, needs, posts, peek, wet, Bool.false_eq_true, if_false,
        if_true]
      split
      · exact stops 403
      · exact guardWrite_authorised is

end Guard

/-! ## Routes of drive operations -/

/-- What of a drive is an operation on it. -/
def driveVerbs : List String := ["format", "firmware", "fleet", "test", "enroll"]

/-- What of a shelf is an operation on its drives. -/
def shelfVerbs : List String := ["format", "firmware", "bays"]

/-- A pattern of drive operations. -/
def isOperation : List Seg → Bool
  | [.lit "api", .lit "v1", .lit "worker", .lit "jobs"] => true
  | .lit "api" :: .lit "v1" :: .lit "worker" :: .lit "jobs" :: .var _ :: _ => true
  | [.lit "api", .lit "v1", .lit "format"] | [.lit "api", .lit "v1", .lit "firmware"] => true
  | .lit "api" :: .lit "v1" :: .lit "shelves" :: .var _ :: .lit verb :: _ => verb ∈ shelfVerbs
  | .lit "api" :: .lit "v1" :: .lit "drives" :: .var _ :: .lit verb :: rest =>
    verb ∈ driveVerbs && rest ≠ [.lit "cancel"]
  | _ => false

/-- The pattern of a test's cancel. -/
def cancelPattern : List Seg :=
  [.lit "api", .lit "v1", .lit "drives", .var "id", .lit "test", .lit "cancel"]

/-- The pattern of a route, by the characters of its text. -/
lemma pattern_route {text : String} {cs : List Char} {methods : Methods}
    (read : text.toList = '/' :: cs) :
    (route text methods).pattern = (cs.splitOn '/').map Seg.ofChars := by
  unfold route pattern
  rw [read]
  rfl

/-- A route whose text has other segments does not take a path. -/
lemma route_misses {text : String} {cs : List Char} {methods : Methods} {ps : List String}
    (read : text.toList = '/' :: cs)
    (other : ¬ List.Forall₂ Seg.Fits ((cs.splitOn '/').map Seg.ofChars) ps) :
    ¬ List.Forall₂ Seg.Fits (route text methods).pattern ps := by
  rw [pattern_route read]
  exact other

/-- What of a route destroys is posted to a pattern of drive operations, by the characters of its
text. -/
lemma destroying_route {text : String} {cs : List Char} {methods : Methods}
    (read : text.toList = '/' :: cs)
    (posted : ∀ m ∈ methods, m.2.destroys = true → m.2 ≠ .patchDrive →
      m.1 = "POST" ∧ isOperation ((cs.splitOn '/').map Seg.ofChars) = true ∧
        .lit "" ∉ (cs.splitOn '/').map Seg.ofChars ∧
        (m.2 ≠ .createJob → ¬ List.Forall₂ Seg.Fits ((cs.splitOn '/').map Seg.ofChars)
          ["api", "v1", "worker", "jobs"])) :
    ∀ m ∈ (route text methods).methods, m.2.destroys = true → m.2 ≠ .patchDrive →
      m.1 = "POST" ∧ isOperation (route text methods).pattern = true ∧
        .lit "" ∉ (route text methods).pattern ∧
        (m.2 ≠ .createJob → ¬ Fits (route text methods).pattern "/api/v1/worker/jobs") := by
  have jobs : parts "/api/v1/worker/jobs" = some ["api", "v1", "worker", "jobs"] := by
    decide
  rw [pattern_route read]
  intro m mem destroys other
  obtain ⟨post, operation, full, elsewhere⟩ := posted m mem destroys other
  refine ⟨post, operation, full, ?_⟩
  rintro creates ⟨ps, is, fits⟩
  obtain rfl := Option.some.inj (jobs.symm.trans is)
  exact elsewhere creates fits

/-- **What may destroy a drive's contents is posted to a pattern of drive operations**, unless it is
a patch. -/
lemma destroying_routes : ∀ r ∈ routes, ∀ m ∈ r.methods, m.2.destroys = true → m.2 ≠ .patchDrive →
    m.1 = "POST" ∧ isOperation r.pattern = true ∧ .lit "" ∉ r.pattern ∧
      (m.2 ≠ .createJob → ¬ Fits r.pattern "/api/v1/worker/jobs") := by
  simp only [routes, kubeRoutes, List.cons_append, List.nil_append, List.forall_mem_cons,
    List.not_mem_nil, false_implies, implies_true, and_true]
  and_intros
  all_goals exact destroying_route String.toList_ofList (by decide +kernel)

/-- The one way to a patch. -/
lemma patch_route : ∀ r ∈ routes, ∀ m ∈ r.methods, m.2 = .patchDrive → m.1 = "PATCH" ∧
    r.pattern =
      [.lit "apis", .lit "storage.storm.io", .lit "v1", .lit "drives", .var "name"] := by
  decide +kernel

lemma cancel_route : ∃ r ∈ routes, r.pattern = cancelPattern :=
  ⟨route "/api/v1/drives/{id}/test/cancel" (post .cancelTest),
    List.mem_iff_getElem?.mpr ⟨31, rfl⟩, by decide⟩

/-- A verb of a drive makes a drive operation, but for a test's cancel. -/
lemma writeAccess_drive {method id verb : String} {rest : List String}
    (operates : verb ∈ driveVerbs) (on : verb = "test" → rest ≠ ["cancel"]) :
    IsDriveOperation (writeAccess method ("api" :: "v1" :: "drives" :: id :: verb :: rest)) := by
  simp only [driveVerbs, List.mem_cons, List.not_mem_nil, or_false] at operates
  rcases operates with rfl | rfl | rfl | rfl | rfl
  · rfl
  · rfl
  · rfl
  · match rest with
    | [] => rfl
    | [kind] =>
      have other : kind ≠ "cancel" := by
        rintro rfl
        exact on rfl rfl
      simp [writeAccess, other, IsDriveOperation, op]
    | _ :: _ :: _ => simp [writeAccess, IsDriveOperation, op]
  · rfl

/-- A verb of a shelf makes a drive operation. -/
lemma writeAccess_shelf {method key verb : String} {rest : List String}
    (operates : verb ∈ shelfVerbs) :
    IsDriveOperation (writeAccess method ("api" :: "v1" :: "shelves" :: key :: verb :: rest)) := by
  simp only [shelfVerbs, List.mem_cons, List.not_mem_nil, or_false] at operates
  rcases operates with rfl | rfl | rfl
  · rfl
  · rfl
  · rfl

/-- **A path that fits a pattern of drive operations needs one**, unless it cancels a test. -/
lemma writeAccess_of_fits {method : String} {p : List Seg} {ps : List String}
    (operation : isOperation p = true) (fits : List.Forall₂ Seg.Fits p ps)
    (first : List.Forall₂ Seg.Fits cancelPattern ps → Before cancelPattern p = false) :
    IsDriveOperation (writeAccess method ps) := by
  unfold isOperation at operation
  split at operation
  · simp only [fits_lit, List.forall₂_nil_left_iff, exists_eq_left] at fits
    subst fits
    rfl
  · simp only [fits_lit, fits_var] at fits
    obtain ⟨_, ⟨_, ⟨_, ⟨_, ⟨id, rest, -, rfl⟩, rfl⟩, rfl⟩, rfl⟩, rfl⟩ := fits
    rfl
  · simp only [fits_lit, List.forall₂_nil_left_iff, exists_eq_left] at fits
    subst fits
    rfl
  · simp only [fits_lit, List.forall₂_nil_left_iff, exists_eq_left] at fits
    subst fits
    rfl
  · simp only [fits_lit, fits_var] at fits
    obtain ⟨_, ⟨_, ⟨_, ⟨key, _, ⟨-, rest, -, rfl⟩, rfl⟩, rfl⟩, rfl⟩, rfl⟩ := fits
    exact writeAccess_shelf (of_decide_eq_true operation)
  · next name verb tail =>
    obtain ⟨operates, notCancel⟩ := Bool.and_eq_true_iff.mp operation
    simp only [fits_lit, fits_var] at fits
    obtain ⟨_, ⟨_, ⟨_, ⟨id, _, ⟨full, rest, fits, rfl⟩, rfl⟩, rfl⟩, rfl⟩, rfl⟩ := fits
    apply writeAccess_drive (of_decide_eq_true operates)
    rintro rfl rfl
    -- the cancel's own pattern goes first
    have beaten : Before cancelPattern (.lit "api" :: .lit "v1" :: .lit "drives" :: .var name ::
        .lit "test" :: tail) = false := by
      apply first
      exact .cons rfl (.cons rfl (.cons rfl (.cons full (.cons rfl (.cons rfl .nil)))))
    obtain ⟨seg, fit, rfl⟩ : ∃ seg, seg.Fits "cancel" ∧ tail = [seg] := by
      rw [List.forall₂_cons_right_iff] at fits
      obtain ⟨seg, _, fit, last, rfl⟩ := fits
      exact ⟨seg, fit, by rw [List.forall₂_nil_right_iff.mp last]⟩
    cases seg with
    | lit t =>
      obtain rfl : "cancel" = t := fit
      exact absurd notCancel (by decide)
    | var _ => exact absurd beaten (by simp [cancelPattern, Before])
  · exact absurd operation Bool.false_ne_true

/-! ## Destroying requests -/

section Router

variable {router : String → String → Option Handler} {g : Gate} {serde : Serde}
  {review : Except String Review} {req : HttpRequest} {h : Handler}

/-- No health check is a write that needs another access than the rest. -/
lemma not_health {method path : String} (other : writeAccess method (segments path) ≠
    ⟨"drives", "update", none⟩) : isHealth path = false := by
  cases health : isHealth path with
  | false => rfl
  | true =>
    apply absurd _ other
    rcases Bool.or_eq_true_iff.mp health with is | is
    · rw [of_decide_eq_true is]
      rfl
    · rw [of_decide_eq_true is]
      rfl

/-- **A patch of a Drive resource is asked for as that**. -/
lemma patch_authorised (follows : Follows routes router)
    (routed : router req.method req.path = some .patchDrive) :
    AuthorisedAs g IsDrivePatch (guard g serde review req) := by
  obtain ⟨r, mem, fits, ⟨m, methods, is, serves⟩, -⟩ := follows routed
  obtain ⟨patched, pattern⟩ := patch_route r mem m methods is
  have method : req.method = "PATCH" := by
    rcases serves with same | ⟨read, -⟩
    · exact same ▸ patched
    · exact absurd (read.symm.trans patched) (by decide)
  have fits := segments_eq_of_fits (by rw [pattern]; decide) fits
  rw [pattern] at fits
  simp only [fits_lit, fits_var, List.forall₂_nil_left_iff] at fits
  obtain ⟨_, ⟨_, ⟨_, ⟨_, ⟨name, _, ⟨-, rfl⟩, rfl⟩, rfl⟩, rfl⟩, rfl⟩, path⟩ := fits
  have needs : classify req.method req.path = some ⟨"drives", "patch", some name⟩ := by
    rw [classify, method, path]
    rfl
  have other : writeAccess req.method (segments req.path) ≠ ⟨"drives", "update", none⟩ := by
    rw [path]
    intro same
    have verb : "patch" = "update" := congrArg Access.verb same
    exact absurd verb (by decide)
  apply guard_authorised needs ⟨rfl, rfl⟩ (not_health other)
  · intro posts
    have post := (Bool.and_eq_true_iff.mp posts).1
    rw [method] at post
    exact absurd post (by decide)

/-- A text that the guard takes for a dry run is no job that is not one. -/
lemma dryRun_of_dryText {readers : JobRequest.Readers} (reads : serde.Reads readers)
    {text : List UInt8} {r : JobRequest} (dry : dryText serde text = true)
    (read : serde.request text = some r) : r.dryRun = true := by
  cases value : serde.value text with
  | none =>
    rw [dryText, value] at dry
    exact absurd dry Bool.false_ne_true
  | some v =>
    rw [dryText, value] at dry
    exact JobRequest.dryRun_of_isDry dry (reads value read)

/-- **Whatever else may destroy a drive's contents is asked for as a drive operation**.

**Proof sketch.** Its route is a pattern of drive operations (`destroying_routes`), so its path
needs one (`writeAccess_of_fits`), and the guard asks (`guard_authorised`): only a posted job could
pass for a dry run, and then it is one (`dryRun_of_dryText`). -/
lemma operation_authorised {readers : JobRequest.Readers} (follows : Follows routes router)
    (reads : serde.Reads readers) (routed : router req.method req.path = some h)
    (destroys : MayDestroy serde h req) (notPatch : h ≠ .patchDrive) :
    AuthorisedAs g IsDriveOperation (guard g serde review req) := by
  obtain ⟨r, mem, ⟨ps, read, fits⟩, ⟨m, methods, rfl, serves⟩, first⟩ := follows routed
  obtain ⟨posted, operation, texts, elsewhere⟩ :=
    destroying_routes r mem m methods destroys.1 notPatch
  have full := full_of_fits fits texts
  have method : req.method = "POST" := by
    rcases serves with same | ⟨isGet, -⟩
    · exact same ▸ posted
    · exact absurd (isGet.symm.trans posted) (by decide)
  have is : IsDriveOperation (writeAccess req.method (segments req.path)) := by
    rw [segments_eq read full]
    apply writeAccess_of_fits operation fits
    intro cancels
    obtain ⟨c, mem, pattern⟩ := cancel_route
    rw [← pattern]
    exact first c mem ⟨ps, read, pattern ▸ cancels⟩
  have needs : classify req.method req.path =
      some (writeAccess req.method (segments req.path)) := by
    rw [classify, method]
    rfl
  have other : writeAccess req.method (segments req.path) ≠ ⟨"drives", "update", none⟩ := by
    intro same
    rw [same] at is
    have resource : "drives" = "driveoperations" := is
    exact absurd resource (by decide)
  apply guard_authorised needs is (not_health other)
  · intro posts text peek
    have jobs : req.path = "/api/v1/worker/jobs" := by
      rw [← trimEnd_eq read full]
      exact of_decide_eq_true (Bool.and_eq_true_iff.mp posts).2
    have creates : m.2 = .createJob := by
      by_contra other
      exact elsewhere other (jobs ▸ ⟨ps, read, fits⟩)
    obtain ⟨text', r', body, asked, wet⟩ := destroys.2 creates
    obtain rfl : text' = text := by
      obtain ⟨same, -⟩ := Option.filter_eq_some_iff.mp peek
      exact Option.some.inj (body.symm.trans same)
    cases dry : dryText serde text' with
    | false => rfl
    | true => exact absurd (dryRun_of_dryText reads dry asked) (ne_true_of_eq_false wet)

end Router

/-- **Whatever may destroy a drive's contents is authorised as a drive operation, a patch of a Drive
resource as that, and a dry run is one**. -/
theorem destroying_authorised {router : String → String → Option Handler} {serde : Serde}
    {readers : JobRequest.Readers} (follows : Follows routes router) (reads : serde.Reads readers) :
    (∀ g review req h, router req.method req.path = some h → MayDestroy serde h req →
      (h ≠ .patchDrive → AuthorisedAs g IsDriveOperation (guard g serde review req)) ∧
      (h = .patchDrive → AuthorisedAs g IsDrivePatch (guard g serde review req))) ∧
    ∀ text r, dryText serde text = true → serde.request text = some r → r.dryRun = true := by
  refine ⟨?_, fun _ _ dry read => dryRun_of_dryText reads dry read⟩
  intro g review req h routed destroys
  constructor
  · intro other
    exact operation_authorised follows reads routed destroys other
  · rintro rfl
    exact patch_authorised follows routed

/-- A job that partitions a drive. -/
def jobText : List UInt8 :=
  ("\x7b\"select\":\x7b\"drives\":[\"sdb\"]\x7d," ++
    "\"steps\":[\x7b\"op\":\"partition\"\x7d]\x7d").toUTF8.data.toList

def jobDocument : Json :=
  .obj [("select", .obj [("drives", .arr [.str "sdb"])]),
    ("steps", .arr [.obj [("op", .str "partition")]])]

def jobAsked : JobRequest := { select := { drives := ["sdb"] }, steps := [.partition .data] }

/-- A reader that knows this one text. -/
def jobSerde : Serde where
  value text := if text = jobText then some jobDocument else none
  request text := if text = jobText then some jobAsked else none

def jobReaders : JobRequest.Readers where
  select v := (v.index "drives").readStrings.map fun drives => { drives }
  steps _ := some [.partition .data]

lemma jobSerde_reads : jobSerde.Reads jobReaders := by
  intro text v r value request
  by_cases known : text = jobText
  · obtain rfl := Option.some.inj ((if_pos known).symm.trans value)
    obtain rfl := Option.some.inj ((if_pos known).symm.trans request)
    rfl
  · exact absurd ((if_neg known).symm.trans value) nofun

/-- A gate with an admin token and no apiserver. -/
def tokenGate : Gate := ⟨none, some "s3cret", true, false⟩

/-- The admin posts the job. -/
def jobPost : HttpRequest where
  method := "POST"
  path := "/api/v1/worker/jobs"
  peer := some ⟨true, none⟩
  authorization := some "Bearer s3cret"
  body := some jobText

/-- The job is authorised as a drive operation, and runs. -/
theorem job_authorised : AuthorisedAs tokenGate IsDriveOperation
    (guard tokenGate jobSerde (.error "no apiserver") jobPost) := by
  have read : parts "/api/v1/worker/jobs" = some ["api", "v1", "worker", "jobs"] := by
    decide
  have split : routes = routes.take 56 ++
      route "/api/v1/worker/jobs" (get .listJobs ++ post .createJob) :: routes.drop 57 := rfl
  have routed : dispatch routes "POST" "/api/v1/worker/jobs" = some .createJob := by
    rw [dispatch, read, Option.bind_some, split, choose_of_unique]
    · rfl
    · rw [pattern_route String.toList_ofList]
      decide
    · simp only [routes, kubeRoutes, List.cons_append, List.nil_append, List.take_succ_cons,
        List.take_zero, List.drop_succ_cons, List.drop_zero, List.forall_mem_cons,
        List.not_mem_nil, false_implies, implies_true, and_true]
      and_intros
      all_goals exact route_misses String.toList_ofList (by decide)
    · rw [pattern_route String.toList_ofList]
      decide
  have asked : jobSerde.request jobText = some jobAsked := by
    simp [jobSerde]
  have destroys : MayDestroy jobSerde .createJob jobPost :=
    ⟨rfl, fun _ => ⟨jobText, jobAsked, rfl, asked, rfl⟩⟩
  exact ((destroying_authorised (dispatch_follows routes) jobSerde_reads).1 tokenGate _
    jobPost .createJob routed destroys).1 nofun

/-- Alice, who may patch drives and not create drive operations. -/
def aliceApi : KubeApi where
  tokenReview _ _ := .ok (some ⟨"alice", [], none⟩)
  accessReview _ _ access := .ok (access.resource = "drives", "")

/-- She has a drive join the fleet. -/
def joinPatch : HttpRequest where
  method := "PATCH"
  path := "/apis/storage.storm.io/v1/drives/u1"
  peer := some ⟨true, none⟩
  authorization := some "Bearer alice"
  body := some "\x7b\"spec\":\x7b\"fleet\":\"fleet\"\x7d\x7d".toUTF8.data.toList

/-- Her access to the drive is reviewed. -/
def aliceReview : Except String Review :=
  asked aliceApi 0 0 (some "alice") none ⟨"drives", "patch", some "u1"⟩

/-- A patch that joins a drive to the fleet is not a drive operation. -/
theorem patch_not_driveOperation : ¬ ∀ g review req h,
    dispatch routes req.method req.path = some h → MayDestroy jobSerde h req →
      AuthorisedAs g IsDriveOperation (guard g jobSerde review req) := by
  intro claimed
  have read : parts "/apis/storage.storm.io/v1/drives/u1" =
      some ["apis", "storage.storm.io", "v1", "drives", "u1"] := by
    decide
  have split : routes = routes.take 66 ++
      route "/apis/storage.storm.io/v1/drives/{name}" (get .getDriveResource ++
        patch .patchDrive) :: routes.drop 67 := rfl
  have routed : dispatch routes "PATCH" "/apis/storage.storm.io/v1/drives/u1" =
      some .patchDrive := by
    rw [dispatch, read, Option.bind_some, split, choose_of_unique]
    · rfl
    · rw [pattern_route String.toList_ofList]
      decide
    · simp only [routes, kubeRoutes, List.cons_append, List.nil_append, List.take_succ_cons,
        List.take_zero, List.drop_succ_cons, List.drop_zero, List.forall_mem_cons,
        List.not_mem_nil, false_implies, implies_true, and_true]
      and_intros
      all_goals exact route_misses String.toList_ofList (by decide)
    · rw [pattern_route String.toList_ofList]
      decide
  have authorised := claimed ⟨some aliceApi, none, true, false⟩ aliceReview joinPatch .patchDrive
    routed ⟨rfl, nofun⟩
  obtain ⟨access, d, mem, operation, -⟩ := authorised
    [.check ⟨"drives", "patch", some "u1"⟩ (.allowed (.kube ⟨"alice", [], none⟩))]
    (some (.kube ⟨"alice", [], none⟩)) _ rfl
  obtain ⟨rfl, -⟩ := Act.check.inj (List.mem_singleton.mp mem)
  have resource : "drives" = "driveoperations" := operation
  exact absurd resource (by decide)

end Api

end KubeAuth

end StormDrive
