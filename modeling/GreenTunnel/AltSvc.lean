import GreenTunnel.Responses

/-! # Stripping Alt-Svc from a response (`utils.rs`)

`strip_alt_svc_headers` keeps the lines of a text that are no Alt-Svc fields and joins
them again.  The lines of the body are lines of the text, too, and are stripped like
fields; and the line ends that it writes stand between the lines.  So a response is read
back without the fields only if a line of its body is kept; otherwise the empty line is
the last one, its end is lost, and a client waits for more fields
(`stripAltSvcHeaders_response`).
-/
namespace GreenTunnel

/-- The line is an Alt-Svc field. -/
def namesAltSvc (line : Str) : Bool :=
  match splitOnce ':' line with
  | some (key, _) => eqIgnoreAsciiCase (trim key) "alt-svc".toList
  | none => false

def stripAltSvcHeaders (responseStr : Str) : Str :=
  crlf.intercalate ((lines responseStr).filter fun line => !namesAltSvc line)

/-! ## The lines of a response -/

theorem Field.namesAltSvc (f : Field) :
    GreenTunnel.namesAltSvc f.line = eqIgnoreAsciiCase f.name "alt-svc".toList := by
  rw [GreenTunnel.namesAltSvc, f.split.1]
  dsimp only
  rw [trim_word fun c hc => (f.name_chars c hc).2]

theorem lines_fields (fields : List Field) (body : Str) :
    lines ((fields.flatMap fun f => f.line ++ crlf) ++ crlf ++ body) =
      fields.map Field.line ++ [] :: lines body := by
  induction fields with
  | nil => exact lines_append_crlf List.not_mem_nil body
  | cons f fields ih =>
    rw [List.flatMap_cons, List.append_assoc, List.append_assoc, ← List.append_assoc _ crlf body,
      lines_append_crlf f.newline_notMem, ih, List.map_cons, List.cons_append]

namespace HttpResponse

/-- The lines of a response. -/
theorem lines_text (r : HttpResponse) :
    lines r.text = r.status :: (r.fields.map Field.line ++ [] :: lines r.body) := by
  have hstatus : '\n' ∉ r.status := fun h => (r.status_chars _ h).2 rfl
  rw [text, lines_append_crlf hstatus, lines_fields]

/-- The response without its Alt-Svc fields, and with the body that is left. -/
def withoutAltSvc (r : HttpResponse) : HttpResponse where
  status := r.status
  fields := r.fields.filter fun f => !eqIgnoreAsciiCase f.name "alt-svc".toList
  body := stripAltSvcHeaders r.body
  status_chars := r.status_chars

/-- The lines that are kept. -/
theorem lines_kept {r : HttpResponse} (h : GreenTunnel.namesAltSvc r.status = false) :
    (lines r.text).filter (fun line => !GreenTunnel.namesAltSvc line) =
      r.status :: (r.withoutAltSvc.fields.map Field.line ++
        [] :: (lines r.body).filter fun line => !GreenTunnel.namesAltSvc line) := by
  have hfields : (r.fields.map Field.line).filter (fun line => !GreenTunnel.namesAltSvc line) =
      r.withoutAltSvc.fields.map Field.line := by
    rw [List.filter_map]
    refine congrArg _ (List.filter_congr fun f _ => ?_)
    exact congrArg _ f.namesAltSvc
  rw [lines_text, List.filter_cons_of_pos (by rw [h]; rfl), List.filter_append, hfields,
    List.filter_cons_of_pos rfl]

end HttpResponse

/-! ## Joined again -/

/-- The lines in front of the last ones end as they are joined. -/
theorem intercalate_append_cons (ls : List Str) (m : Str) (ms : List Str) :
    crlf.intercalate (ls ++ m :: ms) = (ls.flatMap (· ++ crlf)) ++ crlf.intercalate (m :: ms) := by
  induction ls with
  | nil => rfl
  | cons l ls ih =>
    rw [List.flatMap_cons, List.append_assoc, ← ih]
    cases ls with
    | nil => rw [List.cons_append, List.nil_append, List.intercalate_cons_cons]
    | cons l' ls => rw [List.cons_append, List.cons_append, List.intercalate_cons_cons]

/-- Fields without the empty line behind them are read to their end, and no response. -/
theorem readFields_unended (fields : List Field) (fuel : Nat) :
    readFields fuel (fields.flatMap fun f => f.line ++ crlf) = none := by
  induction fields generalizing fuel with
  | nil => cases fuel <;> rfl
  | cons f fields ih =>
    cases fuel with
    | zero => rfl
    | succ fuel =>
      have hline := splitOnceStr_crlf f.newline_notMem (fields.flatMap fun f => f.line ++ crlf)
      rw [List.flatMap_cons, readFields, hline]
      simp only [Option.bind_eq_bind, Option.bind_some, if_neg f.line_ne_nil, f.split.1, ih,
        Option.bind_none]

/-- **What is left of a response**: the same without its Alt-Svc fields, with the body
stripped as if it were fields, if a line of the body is kept; and otherwise nothing that
a client can read. -/
theorem stripAltSvcHeaders_response {r : HttpResponse} (h : namesAltSvc r.status = false) :
    readResponse (stripAltSvcHeaders r.text) =
      if (lines r.body).all namesAltSvc then none
      else some (r.status, r.withoutAltSvc.fields.map fun f => (f.name, f.value),
        stripAltSvcHeaders r.body) := by
  have hstatus : '\n' ∉ r.status := fun h => (r.status_chars _ h).2 rfl
  rw [stripAltSvcHeaders, HttpResponse.lines_kept h]
  cases hkept : (lines r.body).filter fun line => !namesAltSvc line with
  | nil =>
    have hall : (lines r.body).all namesAltSvc = true := by
      simpa using List.filter_eq_nil_iff.mp hkept
    rw [if_pos hall, ← List.cons_append, intercalate_append_cons, List.intercalate_singleton,
      List.append_nil, List.flatMap_cons, List.flatMap_map, readResponse,
      splitOnceStr_crlf hstatus, Option.bind_eq_bind, Option.bind_some]
    simp only [readFields_unended, Option.bind_eq_bind, Option.bind_none]
  | cons line kept =>
    have hsome : (lines r.body).all namesAltSvc = false := by
      obtain ⟨hmem, hline⟩ := List.mem_filter.mp (hkept ▸ List.mem_cons_self : line ∈ _)
      exact List.all_eq_false.mpr ⟨line, hmem, by simpa using hline⟩
    have htext : crlf.intercalate (r.status :: (r.withoutAltSvc.fields.map Field.line ++
        [] :: line :: kept)) = r.withoutAltSvc.text := by
      rw [HttpResponse.text, List.append_cons, ← List.cons_append, intercalate_append_cons, ← hkept]
      simp only [List.flatMap_cons, List.flatMap_append, List.flatMap_map, List.flatMap_nil,
        List.nil_append, List.append_nil, List.append_assoc]
      rfl
    rw [htext, r.withoutAltSvc.read, hsome, if_neg Bool.false_ne_true]
    rfl

/-- A response that offers QUIC, without a body. -/
def quicOffered : HttpResponse where
  status := "HTTP/1.1 200 OK".toList
  fields :=
    [connectionClose,
      plainField "Alt-Svc" "h3=\":443\"; ma=86400" (List.all_iff_forall_prop.mp (by decide))
        (List.all_iff_forall_prop.mp (by decide)) (by decide)]
  body := []
  status_chars := List.all_iff_forall_prop.mp (by decide)

/-- Without a body the end of the fields is lost. -/
theorem stripAltSvcHeaders_example :
    readResponse (stripAltSvcHeaders quicOffered.text) =
      if (lines quicOffered.body).all namesAltSvc then none
      else some (quicOffered.status,
        quicOffered.withoutAltSvc.fields.map fun f => (f.name, f.value),
        stripAltSvcHeaders quicOffered.body) :=
  stripAltSvcHeaders_response (by decide)

end GreenTunnel
