import WorkloadAdmission.Node
import WorkloadAdmission.Pod.Patch

/-! The service as its callers see it: a request with a method, a target, a content type and a body is
answered with a status and possibly a JSON body. Reviews are posted to `/mutate`; `/health` tells
that the service is up. Connections, header fields other than the content type, and the pages behind
other statuses are not modelled. -/
namespace WorkloadAdmission.Service

structure Request where
  method : String
  target : String
  contentType : Option String
  body : ByteArray

structure Response where
  status : Nat
  body : Option Json

/-! ### Admission -/

/-- The media type of a content type: what stands before the parameters, in lower case. -/
def mediaType (contentType : String) : String :=
  String.ofList ((Text.trim Text.isBlank (contentType.toList.takeWhile (· ≠ ';'))).map Char.toLower)

def review (request : Request) : Except RequestFault Review :=
  if mediaType (request.contentType.getD "") ≠ "application/json" then .error (.contentType request.contentType)
  else
    match Json.ofBytes? request.body with
    | none => .error .unreadable
    | some .null => .error .unreadable
    | some v => Review.ofJson v

/-- Answers the review of a pod. What the review calls the pod wins over what the pod calls itself. -/
def answerPod (settings : Settings) (source : Verdict.Source) (review : Review) :
    Verdict.Reads (Except Fault Answer) :=
  if review.resource ≠ some .pods then ⟨.error (.request (.notAPod review.resource)), []⟩
  else
    match Pod.ofJson review.object with
    | .error fault => ⟨.error fault, []⟩
    | .ok pod =>
      let ns := if review.ns = "" then pod.ns else review.ns
      let name := if review.name = "" then pod.name else review.name
      let plan := pod.patch ns name settings source
      ⟨plan.outcome.bind fun (_, patch) =>
        (Answer.review review.uid true patch review.apiVersion review.kind).mapError .patch, plan.keys⟩

def answerNode (source : Verdict.Source) (review : Review) : Verdict.Reads (Except Fault Answer) :=
  if review.resource ≠ some .nodes then ⟨.error (.request (.notANode review.resource)), []⟩
  else
    match Node.ofJson review.object with
    | .error fault => ⟨.error fault, []⟩
    | .ok node =>
      let plan := node.patch source
      ⟨(Answer.review review.uid true plan.outcome.patch review.apiVersion review.kind).mapError .patch,
        plan.keys⟩

/-- Answers a review. What calls itself nodes is a node; anything else has to be a pod. -/
def answer (settings : Settings) (source : Verdict.Source) (review : Review) :
    Verdict.Reads (Except Fault Answer) :=
  if review.resource.any fun r => r.resource = Resource.nodes.resource then answerNode source review
  else answerPod settings source review

def refuse (fault : Fault) (uid apiVersion kind : Text) : Response :=
  ⟨fault.status, some (Answer.refusal uid fault.status fault.message apiVersion kind).toJson⟩

/-- Answers a posted review. A refusal names the review if one could be read. -/
def mutate (settings : Settings) (source : Verdict.Source) (request : Request) : Verdict.Reads Response :=
  match review request with
  | .error fault =>
    ⟨refuse (.request fault) "" Review.defaultApiVersion Review.defaultKind, []⟩
  | .ok review =>
    let ⟨outcome, keys⟩ := answer settings source review
    match outcome with
    | .ok answer => ⟨⟨200, some answer.toJson⟩, keys⟩
    | .error fault => ⟨refuse fault review.uid review.apiVersion review.kind, keys⟩

/-! ### Endpoints -/

inductive Endpoint where
  | mutate
  | health
  /-- A file served as it is. There is none. -/
  | file

/-- Restores what a path writes as `%` and two hexadecimal digits, each time as one character. That
is right for ASCII, and no endpoint has a name beyond it. -/
def unescape : List Char → List Char
  | '%' :: a :: b :: rest =>
    match Text.hexDigit? a, Text.hexDigit? b with
    | some x, some y => Char.ofNat (16 * x + y) :: unescape rest
    | _, _ => '%' :: unescape (a :: b :: rest)
  | c :: rest => c :: unescape rest
  | [] => []

/-- The path of a target, less authority, query and fragment, with exactly one slash in front. -/
def path (target : String) : String :=
  let whole := target.toList.takeWhile fun c => c ≠ '?' && c ≠ '#'
  let inner :=
    match whole with
    | '/' :: '/' :: rest => rest.dropWhile (· ≠ '/')
    | _ => whole
  String.ofList ('/' :: (unescape inner).dropWhile (· = '/'))

def endpoint? (path : String) : Option Endpoint :=
  if path = "/mutate" then some .mutate
  else if path = "/health" then some .health
  else if Text.beginsWith path "/static/" && path ≠ "/static/" then some .file
  else none

/-- Answers a request. Each endpoint knows its methods and answers the question for them. -/
def respond (settings : Settings) (source : Verdict.Source) (request : Request) : Verdict.Reads Response :=
  let method := request.method.toUpper
  match endpoint? (path request.target), method with
  | some .mutate, "POST" => mutate settings source request
  | some .health, "GET" => ⟨⟨200, some (.obj [("status", .str "healthy")])⟩, []⟩
  | some .health, "HEAD" => ⟨⟨200, none⟩, []⟩
  | some .file, "GET" => ⟨⟨404, none⟩, []⟩
  | some .file, "HEAD" => ⟨⟨404, none⟩, []⟩
  | some _, "OPTIONS" => ⟨⟨200, none⟩, []⟩
  | some _, _ => ⟨⟨405, none⟩, []⟩
  | none, _ => ⟨⟨404, none⟩, []⟩

end WorkloadAdmission.Service
