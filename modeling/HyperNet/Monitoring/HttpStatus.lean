import HyperNet.Monitoring.Metrics

/-!
# The status server

What `HttpStatusServer` does with a client (`engine/src/hypernet/monitoring/HttpStatusServer.cpp`):
`parseRequestTarget_` takes the first line of the request apart, `handleClient_` chooses the reply,
`sendTextResponse_` writes it and `sendAll_` hands it to the kernel piece by piece.  A `char` of the
source is a `Char`, and a buffer is the list of what `recv` has put there.

The client's side is `readResponse`: the status line, the fields up to an empty line, and as much of
what follows as `Content-Length` says.
-/

namespace HyperNet.Monitoring

open Parsing Text

/-! ## Requests -/

def crlf : List Char := ['\r', '\n']

/-- Where the first line ends.  A lone line feed counts only if there is no `"\r\n"` in all of the
request. -/
def endOfLine (req : List Char) : Option Nat :=
  match find crlf req with
  | some eol => some eol
  | none => find ['\n'] req

/-- What stands before the first and the second blank of a line; `sp2` is counted from behind the
first. -/
def parseLine (line : List Char) : Option (List Char × List Char) :=
  match find [' '] line with
  | none => none
  | some sp1 =>
    match find [' '] (line.drop (sp1 + 1)) with
    | none => none
    | some sp2 => some (line.take sp1, (line.drop (sp1 + 1)).take sp2)

/-- The method and the target of a request. -/
def parseRequestTarget (req : List Char) : Option (List Char × List Char) :=
  match endOfLine req with
  | none => none
  | some eol => parseLine (req.take eol)

/-- The first line of a request. -/
inductive FirstLine (req line : List Char) : Prop where
  | crlf (rest : List Char) (h : req = line ++ (crlf ++ rest))
      (hfirst : ¬ Monitoring.crlf <:+: line)
  | lf (rest : List Char) (h : req = line ++ '\n' :: rest) (hfirst : '\n' ∉ line)
      (hnone : ¬ Monitoring.crlf <:+: req)

/-- `"\r\n"` does not begin within a line it does not occur in and end behind it. -/
theorem not_crlf_prefix {front rest : List Char} (h : ¬ crlf <:+: front) {j : Nat}
    (hj : j < front.length) : ¬ crlf <+: (front ++ (crlf ++ rest)).drop j := by
  rintro hprefix
  rw [List.drop_append_of_le_length (Nat.le_of_lt hj), List.drop_eq_getElem_cons hj] at hprefix
  obtain ⟨hcr, hrest⟩ := List.cons_prefix_cons.mp hprefix
  cases hd : front.drop (j + 1) with
  | nil =>
    -- the line's last character, and behind it there is a carriage return
    rw [hd] at hrest
    have hlf := (List.cons_prefix_cons.mp hrest).1
    exact absurd hlf (by decide)
  | cons d more =>
    rw [hd] at hrest
    obtain ⟨hlf, -⟩ := List.cons_prefix_cons.mp hrest
    refine h ⟨front.take j, more, ?_⟩
    have hsplit : front = front.take j ++ (front[j] :: d :: more) := by
      rw [← hd, ← List.drop_eq_getElem_cons hj, List.take_append_drop]
    rw [← hcr, ← hlf] at hsplit
    simpa [crlf] using hsplit.symm

theorem endOfLine_eq_some {req : List Char} {eol : Nat} :
    endOfLine req = some eol ↔ ∃ line, FirstLine req line ∧ line.length = eol := by
  unfold endOfLine
  constructor
  · intro h
    cases hfind : find crlf req with
    | some i =>
      rw [hfind] at h
      cases h
      obtain ⟨⟨rest, hrest⟩, hlen, hfirst⟩ := find_eq_some hfind
      refine ⟨req.take eol, .crlf rest hrest ?_, List.length_take_of_le hlen⟩
      rintro ⟨a, b, hab⟩
      have ha : a.length + 2 ≤ eol := by
        have := congrArg List.length hab
        rw [List.length_take_of_le hlen] at this
        simp only [List.length_append, crlf, List.length_cons, List.length_nil] at this
        omega
      refine hfirst a.length (by omega) ⟨b ++ req.drop eol, ?_⟩
      have hreq : req = a ++ (crlf ++ (b ++ req.drop eol)) := by
        conv_lhs => rw [← List.take_append_drop eol req, ← hab]
        simp [List.append_assoc]
      conv_rhs => rw [hreq, List.drop_left]
    | none =>
      rw [hfind] at h
      obtain ⟨a, rest, hreq, hmem, hlen⟩ := find_singleton.mp h
      exact ⟨a, .lf rest hreq hmem (find_eq_none.mp hfind), hlen⟩
  · rintro ⟨line, hline, rfl⟩
    cases hline with
    | crlf rest h hfirst =>
      subst h
      rw [find_append fun j hj => not_crlf_prefix hfirst hj]
    | lf rest h hfirst hnone =>
      rw [find_eq_none.mpr hnone]
      exact find_singleton.mpr ⟨line, rest, h, hfirst, rfl⟩

theorem FirstLine.take {req line : List Char} (h : FirstLine req line) :
    req.take line.length = line := by
  cases h with
  | crlf rest h | lf rest h => rw [h, List.take_left]

theorem parseLine_eq_some {line method target : List Char} :
    parseLine line = some (method, target) ↔
      ∃ version, line = method ++ ' ' :: (target ++ ' ' :: version) ∧ ' ' ∉ method ∧
        ' ' ∉ target := by
  unfold parseLine
  constructor
  · intro h
    split at h
    · cases h
    next sp1 hsp1 =>
      obtain ⟨first, rest, rfl, hfirst, rfl⟩ := find_singleton.mp hsp1
      have hdrop : (first ++ ' ' :: rest).drop (first.length + 1) = rest := by simp
      rw [hdrop] at h
      split at h
      · cases h
      next sp2 hsp2 =>
        obtain ⟨second, version, rfl, hsecond, rfl⟩ := find_singleton.mp hsp2
        cases h
        exact ⟨version, by simp, by simpa using hfirst, by simpa using hsecond⟩
  · rintro ⟨version, rfl, hmethod, htarget⟩
    have hsp1 : find [' '] (method ++ ' ' :: (target ++ ' ' :: version)) = some method.length :=
      find_singleton.mpr ⟨_, _, rfl, hmethod, rfl⟩
    have hsp2 : find [' '] (target ++ ' ' :: version) = some target.length :=
      find_singleton.mpr ⟨_, _, rfl, htarget, rfl⟩
    have hdrop : (method ++ ' ' :: (target ++ ' ' :: version)).drop (method.length + 1) =
        target ++ ' ' :: version := by simp
    simp only [hsp1, hdrop, hsp2, List.take_left]

/-- The first line of a request is a method, a target and something more, with one blank between
them. -/
structure RequestLine (req method target version : List Char) : Prop where
  line : FirstLine req (method ++ ' ' :: (target ++ ' ' :: version))
  method : ' ' ∉ method
  target : ' ' ∉ target

theorem parseRequestTarget_eq_some {req method target : List Char} :
    parseRequestTarget req = some (method, target) ↔
      ∃ version, RequestLine req method target version := by
  unfold parseRequestTarget
  constructor
  · intro h
    split at h
    · cases h
    next eol heol =>
      obtain ⟨line, hline, rfl⟩ := endOfLine_eq_some.mp heol
      rw [hline.take] at h
      obtain ⟨version, rfl, hmethod, htarget⟩ := parseLine_eq_some.mp h
      exact ⟨version, ⟨hline, hmethod, htarget⟩⟩
  · rintro ⟨version, hline, hmethod, htarget⟩
    rw [endOfLine_eq_some.mpr ⟨_, hline, rfl⟩]
    dsimp only
    rw [hline.take]
    exact parseLine_eq_some.mpr ⟨version, rfl, hmethod, htarget⟩

/-! ## Replies -/

structure Reply where
  code : Nat
  reason : List Char
  contentType : List Char
  body : List Char
deriving DecidableEq, Repr

def plainText : List Char := "text/plain; charset=utf-8".toList

def badRequest : Reply := ⟨400, "Bad Request".toList, plainText, "bad request\n".toList⟩

def methodNotAllowed : Reply :=
  ⟨405, "Method Not Allowed".toList, plainText, "method not allowed\n".toList⟩

def notFound : Reply := ⟨404, "Not Found".toList, plainText, "not found\n".toList⟩

def ok (m : EngineMetrics) : Reply :=
  ⟨200, "OK".toList, "text/plain; version=0.0.4; charset=utf-8".toList, m.toPrometheusText⟩

def get : List Char := "GET".toList

/-- `"/metrics"`, or `"/metrics?"` and a query. -/
def IsMetrics (target : List Char) : Prop :=
  target = "/metrics".toList ∨ "/metrics?".toList <+: target

instance (target : List Char) : Decidable (IsMetrics target) := instDecidableOr

/-- What is answered to the bytes received. -/
def reply (m : EngineMetrics) (req : List Char) : Reply :=
  match parseRequestTarget req with
  | none => badRequest
  | some (method, target) =>
    if method ≠ get then methodNotAllowed
    else if IsMetrics target then ok m
    else notFound

/-- What `handleClient_` answers to what `recv` returns, if `poll` has found something to read and
`recv` has not failed.  A peer that has closed gets no answer either. -/
def handleClient (m : EngineMetrics) : Option (List Char) → Option Reply
  | none | some [] => none
  | some req => some (reply m req)

def httpVersion : List Char := "HTTP/1.1 ".toList
def contentTypeIs : List Char := "Content-Type: ".toList
def contentLengthIs : List Char := "Content-Length: ".toList
def connectionIsClose : List Char := "Connection: close\r\n\r\n".toList

/-- The header as `sendTextResponse_` puts it together. -/
def Reply.header (r : Reply) : List Char :=
  httpVersion ++ Nat.toDigits 10 r.code ++ [' '] ++ r.reason ++ crlf ++
    contentTypeIs ++ r.contentType ++ crlf ++
    contentLengthIs ++ Nat.toDigits 10 r.body.length ++ crlf ++ connectionIsClose

def Reply.text (r : Reply) : List Char := r.header ++ r.body

/-! ## The client's side -/

/-- A line up to `"\r\n"`. -/
def crlfLine : Parser Char (List Char) :=
  (upTo '\r').bind fun text => (literal ['\n']).map fun _ => text

/-- A field of the header: a name, a colon, a blank and a value. -/
def field (text : List Char) : Option (List Char × List Char) :=
  match upTo ':' text with
  | some (name, ' ' :: value) => some (name, value)
  | _ => none

/-- The fields up to the empty line, so many at most. -/
def readFields : Nat → Parser Char (List (List Char × List Char))
  | 0, _ => none
  | n + 1, text =>
    match crlfLine text with
    | none => none
    | some ([], rest) => some ([], rest)
    | some (line, rest) =>
      match field line with
      | none => none
      | some f => (readFields n rest).map (Prod.map (f :: ·) id)

/-- The code of the status line. -/
def readStatus : Parser Char Nat :=
  (literal httpVersion).bind fun _ => decimal.bind fun code =>
    (literal [' ']).bind fun _ => crlfLine.map fun _ => code

def contentTypeName : List Char := "Content-Type".toList
def contentLengthName : List Char := "Content-Length".toList

/-- The length that the fields announce. -/
def contentLength (fields : List (List Char × List Char)) : Option Nat :=
  match fields.lookup contentLengthName with
  | none => none
  | some value =>
    match decimal value with
    | some (n, []) => some n
    | _ => none

/-- The code, the body, and what comes after it. -/
def readResponse (text : List Char) : Option (Nat × List Char × List Char) :=
  match readStatus text with
  | none => none
  | some (code, rest) =>
    match readFields rest.length rest with
    | none => none
    | some (fields, rest) =>
      match contentLength fields with
      | none => none
      | some n => if rest.length < n then none else some (code, rest.take n, rest.drop n)

theorem crlfLine_append {text : List Char} (h : '\r' ∉ text) (rest : List Char) :
    crlfLine (text ++ (crlf ++ rest)) = some (text, rest) := by
  have hfirst : upTo '\r' (text ++ (crlf ++ rest)) = some (text, '\n' :: rest) := upTo_append h _
  have hsecond : literal ['\n'] ('\n' :: rest) = some ((), rest) := literal_append ['\n'] rest
  rw [crlfLine, Parser.bind_some hfirst]
  exact Parser.map_some _ hsecond

/-- A field as it is written. -/
def fieldLine (f : List Char × List Char) : List Char := f.1 ++ (':' :: ' ' :: f.2)

theorem field_fieldLine {f : List Char × List Char} (h : ':' ∉ f.1) :
    field (fieldLine f) = some f := by
  have hname : upTo ':' (fieldLine f) = some (f.1, ' ' :: f.2) := upTo_append h _
  rw [field, hname]
  rfl

theorem readFields_append {fields : List (List Char × List Char)}
    (hname : ∀ f ∈ fields, ':' ∉ f.1) (hline : ∀ f ∈ fields, '\r' ∉ fieldLine f) {n : Nat}
    (hn : fields.length < n) (rest : List Char) :
    readFields n (fields.flatMap (fun f => fieldLine f ++ crlf) ++ (crlf ++ rest)) =
      some (fields, rest) := by
  induction fields generalizing n with
  | nil =>
    obtain _ | n := n
    · cases hn
    have hempty : crlfLine (crlf ++ rest) = some ([], rest) := crlfLine_append List.not_mem_nil _
    simp [readFields, hempty]
  | cons f fields ih =>
    obtain _ | n := n
    · cases hn
    have hfirst := crlfLine_append (hline f List.mem_cons_self)
      (fields.flatMap (fun f => fieldLine f ++ crlf) ++ (crlf ++ rest))
    have hrest := ih (fun f' hf' => hname f' (List.mem_cons_of_mem _ hf'))
      (fun f' hf' => hline f' (List.mem_cons_of_mem _ hf')) (Nat.lt_of_succ_lt_succ hn)
    have hne : fieldLine f ≠ [] := by simp [fieldLine]
    obtain ⟨c, line, hcons⟩ := List.exists_cons_of_ne_nil hne
    have hfield := field_fieldLine (hname f List.mem_cons_self)
    rw [hcons] at hfirst hfield
    rw [List.flatMap_cons, List.append_assoc, List.append_assoc, hcons, readFields, hfirst]
    simp only [hfield, hrest]
    rfl

/-- The last field, which is always the same. -/
def connectionClose : List Char × List Char := ("Connection".toList, "close".toList)

/-- The fields of a reply. -/
def Reply.fields (r : Reply) : List (List Char × List Char) :=
  [(contentTypeName, r.contentType), (contentLengthName, Nat.toDigits 10 r.body.length),
    connectionClose]

/-- The parts of a reply keep to their lines. -/
structure Reply.Valid (r : Reply) : Prop where
  reason : '\r' ∉ r.reason
  contentType : '\r' ∉ r.contentType

theorem Reply.header_eq (r : Reply) :
    r.header = httpVersion ++ Nat.toDigits 10 r.code ++ [' '] ++ r.reason ++ crlf ++
      fieldLine (contentTypeName, r.contentType) ++ crlf ++
      fieldLine (contentLengthName, Nat.toDigits 10 r.body.length) ++ crlf ++
      (fieldLine connectionClose ++ crlf ++ crlf) := by
  have htype : ∀ v, fieldLine (contentTypeName, v) = contentTypeIs ++ v := fun _ => rfl
  have hlength : ∀ v, fieldLine (contentLengthName, v) = contentLengthIs ++ v := fun _ => rfl
  have hlast : fieldLine connectionClose ++ crlf ++ crlf = connectionIsClose := rfl
  rw [htype, hlength, hlast, Reply.header]
  simp only [List.append_assoc]

theorem Reply.text_eq (r : Reply) (more : List Char) :
    r.text ++ more = httpVersion ++ (Nat.toDigits 10 r.code ++ (' ' :: (r.reason ++ (crlf ++
      (r.fields.flatMap (fun f => fieldLine f ++ crlf) ++ (crlf ++ (r.body ++ more))))))) := by
  rw [Reply.text, Reply.header_eq]
  simp only [Reply.fields, List.flatMap_cons, List.flatMap_nil, List.append_assoc,
    List.nil_append, List.cons_append]

theorem readStatus_append {reason : List Char} (h : '\r' ∉ reason) (code : Nat)
    (rest : List Char) :
    readStatus (httpVersion ++ (Nat.toDigits 10 code ++ (' ' :: (reason ++ (crlf ++ rest))))) =
      some (code, rest) := by
  have hblank : literal [' '] (' ' :: (reason ++ (crlf ++ rest))) =
      some ((), reason ++ (crlf ++ rest)) := literal_append [' '] _
  rw [readStatus, Parser.bind_some (literal_append _ _),
    Parser.bind_some (decimal_toDigits _ (noDigit_cons (by decide) _)), Parser.bind_some hblank]
  exact Parser.map_some _ (crlfLine_append h rest)

theorem contentLength_fields (r : Reply) : contentLength r.fields = some r.body.length := by
  have hvalue := decimal_toDigits r.body.length noDigit_nil
  rw [List.append_nil] at hvalue
  have hlookup : r.fields.lookup contentLengthName = some (Nat.toDigits 10 r.body.length) := rfl
  rw [contentLength, hlookup]
  simp only [hvalue]

namespace Reply.Valid

variable {r : Reply}

theorem fieldNames (r : Reply) : ∀ f ∈ r.fields, ':' ∉ f.1 := by
  intro f hf
  simp only [Reply.fields, List.mem_cons, List.not_mem_nil, or_false] at hf
  rcases hf with rfl | rfl | rfl
  · exact (by decide : ':' ∉ contentTypeName)
  · exact (by decide : ':' ∉ contentLengthName)
  · decide

theorem fieldLines (h : r.Valid) : ∀ f ∈ r.fields, '\r' ∉ fieldLine f := by
  have hparts : ∀ {name value : List Char}, '\r' ∉ name → '\r' ∉ value →
      '\r' ∉ fieldLine (name, value) := by
    intro name value hname hvalue
    simp [fieldLine, hname, hvalue]
  intro f hf
  simp only [Reply.fields, List.mem_cons, List.not_mem_nil, or_false] at hf
  rcases hf with rfl | rfl | rfl
  · exact hparts (by decide) h.contentType
  · exact hparts (by decide) (notMem_toDigits (by decide) _)
  · decide

/-- A reply is read as it was meant, whatever follows it. -/
theorem readResponse_text (h : r.Valid) (more : List Char) :
    readResponse (r.text ++ more) = some (r.code, r.body, more) := by
  have hfields := readFields_append (fieldNames r) h.fieldLines
    (n := (r.fields.flatMap (fun f => fieldLine f ++ crlf) ++ (crlf ++ (r.body ++ more))).length)
    (by simp [Reply.fields, fieldLine, crlf]; omega) (r.body ++ more)
  rw [Reply.text_eq, readResponse, readStatus_append h.reason]
  simp only [hfields, contentLength_fields]
  simp

end Reply.Valid

theorem reply_valid (m : EngineMetrics) (req : List Char) : (reply m req).Valid := by
  have hall : badRequest.Valid ∧ methodNotAllowed.Valid ∧ notFound.Valid :=
    ⟨⟨by decide, by decide⟩, ⟨by decide, by decide⟩, ⟨by decide, by decide⟩⟩
  have hok : (ok m).Valid := ⟨by simp [ok], by simp [ok]⟩
  unfold reply
  split
  · exact hall.1
  · split
    · exact hall.2.1
    · split
      · exact hok
      · exact hall.2.2

/-- What is answered to a request for the metrics. -/
theorem RequestLine.reply_metrics {req target version : List Char}
    (h : RequestLine req get target version) (htarget : IsMetrics target) (m : EngineMetrics) :
    (reply m req).code = 200 ∧ samples (reply m req).body = m.snapshot.values := by
  have hparse := parseRequestTarget_eq_some.mpr ⟨version, h⟩
  simp only [reply, hparse, if_neg (not_not.mpr rfl), if_pos htarget]
  exact ⟨rfl, samples_toText m.snapshot⟩

theorem handleClient_eq_some {m : EngineMetrics} {received : Option (List Char)} {r : Reply} :
    handleClient m received = some r ↔ ∃ req ≠ [], received = some req ∧ reply m req = r := by
  match received with
  | none | some [] | some (_ :: _) => simp [handleClient]

/-- A client is answered if and only if bytes of it were received, and it reads the answer as it was
meant: a bad request if there is no request line in those bytes, and else by the method and the
target.  To a request for the metrics the answer holds the values of the metrics under their
names. -/
theorem request_answered (m : EngineMetrics) (received : Option (List Char)) (more : List Char) :
    ((∃ r, handleClient m received = some r) ↔ ∃ req ≠ [], received = some req) ∧
      ∀ req r, received = some req → handleClient m received = some r →
        readResponse (r.text ++ more) = some (r.code, r.body, more) ∧
          ((¬ ∃ method target version, RequestLine req method target version) → r.code = 400) ∧
          ∀ method target version, RequestLine req method target version →
            (method ≠ get → r.code = 405) ∧
              (method = get → ¬ IsMetrics target → r.code = 404) ∧
              (method = get → IsMetrics target →
                r.code = 200 ∧ samples r.body = m.snapshot.values) := by
  refine ⟨by simp [handleClient_eq_some], fun req r hreceived hr => ?_⟩
  subst hreceived
  obtain ⟨_, -, ⟨⟩, rfl⟩ := handleClient_eq_some.mp hr
  refine ⟨(reply_valid m req).readResponse_text more, fun hnone => ?_, ?_⟩
  · cases hparse : parseRequestTarget req with
    | none =>
      simp only [reply, hparse]
      rfl
    | some found =>
      obtain ⟨version, hline⟩ := parseRequestTarget_eq_some.mp hparse
      exact absurd ⟨_, _, version, hline⟩ hnone
  · intro method target version hline
    have hparse := parseRequestTarget_eq_some.mpr ⟨version, hline⟩
    refine ⟨fun hmethod => ?_, fun hmethod htarget => ?_, fun hmethod htarget => ?_⟩
    · simp only [reply, hparse, if_pos hmethod]
      rfl
    · simp only [reply, hparse, if_neg (not_not.mpr hmethod), if_neg htarget]
      rfl
    · subst hmethod
      exact hline.reply_metrics htarget m

/-! ## Sending -/

/-- What a call of `send` returns. -/
inductive SendResult where
  /-- One byte was taken and `n` more, or all that were offered. -/
  | sent (n : Nat)
  /-- `EAGAIN`, `EWOULDBLOCK` or `EINTR`. -/
  | again
  /-- Zero or another error. -/
  | failed
deriving DecidableEq, Repr

/-- `sendAll_` for the results the kernel gives: what was taken, and the results that are left when
it returns.  There is none if it has not returned. -/
def sendAll (data : List Char) : List SendResult → List Char × Option (List SendResult)
  | [] => ([], if data = [] then some [] else none)
  | result :: results =>
    if data = [] then ([], some (result :: results))
    else
      match result with
      | .sent n =>
        let rest := sendAll (data.drop (n + 1)) results
        (data.take (n + 1) ++ rest.1, rest.2)
      | .again => sendAll data results
      | .failed => ([], some results)

/-- `sendTextResponse_`: the body is sent even if the header was given up. -/
def sendTextResponse (r : Reply) (results : List SendResult) :
    List Char × Option (List SendResult) :=
  match sendAll r.header results with
  | (taken, none) => (taken, none)
  | (taken, some left) =>
    let rest := sendAll r.body left
    (taken ++ rest.1, rest.2)

/-- What `sendAll_` has done so far. -/
structure Sent (data : List Char) (results : List SendResult)
    (out : List Char × Option (List SendResult)) : Prop where
  taken : out.1 <+: data
  /-- It returns when all is sent or on an error. -/
  returned : ∀ left, out.2 = some left →
    left <:+ results ∧ (out.1 = data ∨ SendResult.failed ∈ results)

theorem sendAll_sent (data : List Char) (results : List SendResult) :
    Sent data results (sendAll data results) := by
  induction results generalizing data with
  | nil =>
    refine ⟨List.nil_prefix, fun left hleft => ?_⟩
    unfold sendAll at hleft
    split at hleft
    next hempty =>
      cases hleft
      exact ⟨List.suffix_rfl, .inl hempty.symm⟩
    · cases hleft
  | cons result results ih =>
    unfold sendAll
    split
    next hempty =>
      refine ⟨List.nil_prefix, fun left hleft => ?_⟩
      cases hleft
      exact ⟨List.suffix_rfl, .inl hempty.symm⟩
    · cases result with
      | sent n =>
        obtain ⟨htaken, hreturned⟩ := ih (data.drop (n + 1))
        refine ⟨?_, fun left hleft => ?_⟩
        · conv_rhs => rw [← List.take_append_drop (n + 1) data]
          exact (List.prefix_append_right_inj _).mpr htaken
        · obtain ⟨hsuffix, hall | hfailed⟩ := hreturned left hleft
          · refine ⟨hsuffix.trans (List.suffix_cons ..), .inl ?_⟩
            change data.take (n + 1) ++ (sendAll (data.drop (n + 1)) results).1 = data
            rw [hall, List.take_append_drop]
          · exact ⟨hsuffix.trans (List.suffix_cons ..), .inr (List.mem_cons_of_mem _ hfailed)⟩
      | again =>
        obtain ⟨htaken, hreturned⟩ := ih data
        refine ⟨htaken, fun left hleft => ?_⟩
        obtain ⟨hsuffix, hall⟩ := hreturned left hleft
        exact ⟨hsuffix.trans (List.suffix_cons ..), hall.imp_right (List.mem_cons_of_mem _)⟩
      | failed =>
        refine ⟨List.nil_prefix, fun left hleft => ?_⟩
        cases hleft
        exact ⟨List.suffix_cons .., .inr List.mem_cons_self⟩

/-- What the client gets is some beginning of the header and then some beginning of the body. -/
theorem sendTextResponse_parts (r : Reply) (results : List SendResult) :
    ∃ h b, (sendTextResponse r results).1 = h ++ b ∧ h <+: r.header ∧ b <+: r.body := by
  have hheader := sendAll_sent r.header results
  unfold sendTextResponse
  match hout : sendAll r.header results with
  | (taken, none) =>
    rw [hout] at hheader
    exact ⟨taken, [], by simp, hheader.taken, List.nil_prefix⟩
  | (taken, some left) =>
    rw [hout] at hheader
    exact ⟨taken, _, rfl, hheader.taken, (sendAll_sent r.body left).taken⟩

/-- Without an error the client gets a beginning of the response, and all of it if the call
returns. -/
theorem Reply.Valid.delivered {r : Reply} (h : r.Valid) {results : List SendResult}
    (hnone : SendResult.failed ∉ results) :
    (sendTextResponse r results).1 <+: r.text ∧
      ((sendTextResponse r results).2 ≠ none →
        readResponse (sendTextResponse r results).1 = some (r.code, r.body, [])) := by
  have hread := h.readResponse_text []
  rw [List.append_nil] at hread
  have hheader := sendAll_sent r.header results
  unfold sendTextResponse
  match hout : sendAll r.header results with
  | (taken, none) =>
    rw [hout] at hheader
    exact ⟨hheader.taken.trans (List.prefix_append ..), fun hne => absurd rfl hne⟩
  | (taken, some left) =>
    rw [hout] at hheader
    have hbody := sendAll_sent r.body left
    obtain ⟨hsuffix, hall⟩ := hheader.returned left rfl
    have htaken : taken = r.header := hall.resolve_right hnone
    subst htaken
    refine ⟨(List.prefix_append_right_inj _).mpr hbody.taken, fun hsome => ?_⟩
    obtain ⟨left', hleft'⟩ := Option.ne_none_iff_exists'.mp hsome
    have hwhole := (hbody.returned left' hleft').2.resolve_right
      fun hfailed => hnone (hsuffix.subset hfailed)
    change readResponse (r.header ++ (sendAll r.body left).1) = _
    rw [hwhole]
    exact hread

/-- Whatever the kernel does, the client gets some beginning of the header and then some beginning
of the body.  Without an error this is a beginning of the response, and once `sendTextResponse_`
has returned it is the response, which the client reads as it was meant. -/
theorem response_delivered (m : EngineMetrics) (req : List Char) (results : List SendResult) :
    (∃ h b, (sendTextResponse (reply m req) results).1 = h ++ b ∧ h <+: (reply m req).header ∧
        b <+: (reply m req).body) ∧
      (SendResult.failed ∉ results →
        (sendTextResponse (reply m req) results).1 <+: (reply m req).text ∧
          ((sendTextResponse (reply m req) results).2 ≠ none →
            readResponse (sendTextResponse (reply m req) results).1 =
              some ((reply m req).code, (reply m req).body, []))) :=
  ⟨sendTextResponse_parts _ results, fun hnone => (reply_valid m req).delivered hnone⟩

end HyperNet.Monitoring
