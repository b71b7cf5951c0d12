import EvilResp.Resp.RoundTrip

/-!
# Frame boundaries under hostile input

The reader decides where a frame ends, the parser decides what it holds.  On any
buffer the reader accepts, the parser's traversal stays inside the reader's: each
head the reader copied is the head the parser reads, and the stack of unread
children is the recursion of the parser.  What is left to fail is the content of
one scalar line, and it is the first one whose content is refused.

Main results:

- Theorem {lit}`IsHead.consumes`: the parser reads one head exactly as far as the
  reader copied it.
- Theorem {lit}`readLoop_consumes`: closing a level of the reader's stack is
  reading that many frames of the parser.
- Theorem {lit}`parseFrame_of_readRawFrame`: the two agree on the boundary of every
  frame.
-/

namespace EvilResp
namespace Resp

open Library
open EvilResp.Resp.Frame (byteOf crlf)

/-! ## Scalar faults -/

/-- The kinds whose line is UTF-8 text. -/
def isTextKind (kind : UInt8) : Bool :=
  asChar kind = '+' ∨ asChar kind = '-' ∨ asChar kind = ',' ∨ asChar kind = '('

/-- The ways the content of one scalar line is refused. -/
inductive ScalarFault : UInt8 → Bytes → RespError → Prop where
  | text {kind : UInt8} {line : Bytes} {error : Utf8Error} (hkind : isTextKind kind = true)
      (hline : fromUtf8 line = .error error) : ScalarFault kind line (.invalidUtf8 error)
  | integerText {kind : UInt8} {line : Bytes} {error : Utf8Error} (hkind : asChar kind = ':')
      (hline : fromUtf8 line = .error error) : ScalarFault kind line (.invalidUtf8 error)
  | integer {kind : UInt8} {line : Bytes} {value : String} {error : IntErrorKind}
      (hkind : asChar kind = ':') (hline : fromUtf8 line = .ok value)
      (hvalue : parseI64 value = .error error) : ScalarFault kind line (.invalidInteger error)
  | null {kind : UInt8} {line : Bytes} (hkind : asChar kind = '_') (hline : line ≠ []) :
      ScalarFault kind line .nullWithData
  | boolean {kind : UInt8} {line : Bytes} (hkind : asChar kind = '#')
      (htrue : line ≠ [byteOf 't']) (hfalse : line ≠ [byteOf 'f']) :
      ScalarFault kind line .invalidBoolean

/-- The content of a head is not refused. -/
def Unfaulted (head : Bytes) : Prop :=
  ∀ kind line error, head = kind :: line ++ crlf → ¬ ScalarFault kind line error

/-- The first head whose content is refused. -/
def FirstFault (heads : List Bytes) (error : RespError) : Prop :=
  ∃ sound kind line later, heads = sound ++ (kind :: line ++ crlf) :: later ∧
    (∀ head ∈ sound, Unfaulted head) ∧ ScalarFault kind line error

/-- A parser reads exactly some heads, whatever follows them, or refuses the content of the first
of them that is faulty. -/
def Consumes {α : Type} (parse : Parser α) (heads : List Bytes) : Prop :=
  ∀ more,
    (∃ a, (∀ head ∈ heads, Unfaulted head) ∧ parse (heads.flatten ++ more) = .ok (a, more)) ∨
      ∃ error, FirstFault heads error ∧ parse (heads.flatten ++ more) = .error error

theorem FirstFault.append {heads : List Bytes} {error : RespError} (h : FirstFault heads error)
    (later : List Bytes) : FirstFault (heads ++ later) error := by
  rcases h with ⟨sound, kind, line, rest, rfl, hsound, hfault⟩
  exact ⟨sound, kind, line, rest ++ later, by simp, hsound, hfault⟩

theorem FirstFault.after {before heads : List Bytes} {error : RespError}
    (h : FirstFault heads error) (hbefore : ∀ head ∈ before, Unfaulted head) :
    FirstFault (before ++ heads) error := by
  rcases h with ⟨sound, kind, line, later, rfl, hsound, hfault⟩
  refine ⟨before ++ sound, kind, line, later, by simp, ?_, hfault⟩
  exact List.forall_mem_append.mpr ⟨hbefore, hsound⟩

/-- A parser of one head. -/
theorem consumes_head {α : Type} {parse : Parser α} {head : Bytes}
    (h : ∀ more, (∃ a, Unfaulted head ∧ parse (head ++ more) = .ok (a, more)) ∨
      ∃ kind line error, head = kind :: line ++ crlf ∧ ScalarFault kind line error ∧
        parse (head ++ more) = .error error) : Consumes parse [head] := by
  intro more
  rw [List.flatten_singleton]
  rcases h more with ⟨a, hsound, hparse⟩ | ⟨kind, line, error, rfl, hfault, hparse⟩
  · exact .inl ⟨a, by simpa using hsound, hparse⟩
  · exact .inr ⟨error, ⟨[], kind, line, [], rfl, by simp, hfault⟩, hparse⟩

theorem consumes_of_ok {α : Type} {parse : Parser α} {head : Bytes} (hhead : Unfaulted head)
    (h : ∀ more, ∃ a, parse (head ++ more) = .ok (a, more)) : Consumes parse [head] :=
  consumes_head fun more => (h more).elim fun a ha => .inl ⟨a, hhead, ha⟩

/-- Nothing is left for zero frames. -/
theorem Consumes.eq_nil {parse : Parser Frame} {heads : List Bytes}
    (h : Consumes (readItems parse 0) heads) : heads.flatten = [] := by
  rcases h [] with ⟨items, -, hitems⟩ | ⟨error, -, herror⟩
  · simp only [readItems, Except.ok.injEq, Prod.mk.injEq] at hitems
    simpa using hitems.2
  · cases herror

theorem consumes_readItems_zero {parse : Parser Frame} : Consumes (readItems parse 0) [] :=
  fun _ => .inl ⟨[], by simp, rfl⟩

/-- One frame and the frames after it are consumed together. -/
theorem Consumes.readItems_succ {parse : Parser Frame} {first rest : List Bytes} {n : Nat}
    (hfirst : Consumes parse first) (hrest : Consumes (readItems parse n) rest) :
    Consumes (readItems parse (n + 1)) (first ++ rest) := by
  intro more
  rw [List.flatten_append, List.append_assoc]
  rcases hfirst (rest.flatten ++ more) with ⟨f, hsound, hf⟩ | ⟨error, hfault, herror⟩
  · rcases hrest more with ⟨fs, hlater, hfs⟩ | ⟨error, hfault, herror⟩
    · refine .inl ⟨f :: fs, List.forall_mem_append.mpr ⟨hsound, hlater⟩, ?_⟩
      simp only [readItems, hf, ok_bind, hfs]
    · refine .inr ⟨error, hfault.after hsound, ?_⟩
      simp only [readItems, hf, ok_bind, herror, error_bind]
  · refine .inr ⟨error, hfault.append rest, ?_⟩
    simp only [readItems, herror, error_bind]

/-- A parser that only post-processes what another one reads. -/
theorem Consumes.map {α β : Type} {parse : Parser α} {head : Bytes} {heads : List Bytes}
    {parse' : Parser β} {f : α → β} (h : Consumes parse heads) (hhead : Unfaulted head)
    (hparse : ∀ more, parse' (head ++ (heads.flatten ++ more)) =
      (parse (heads.flatten ++ more)).map fun (a, rest) => (f a, rest)) :
    Consumes parse' (head :: heads) := by
  intro more
  rw [List.flatten_cons, List.append_assoc, hparse]
  rcases h more with ⟨a, hsound, ha⟩ | ⟨error, hfault, herror⟩
  · exact .inl ⟨f a, List.forall_mem_cons.mpr ⟨hhead, hsound⟩, by rw [ha, map_ok]⟩
  · refine .inr ⟨error, ?_, by rw [herror, map_error]⟩
    exact @FirstFault.after [head] heads error hfault (by simpa using hhead)

/-! ## Faulty lines -/

/-- The kinds whose lines have content. -/
theorem ScalarFault.kind {kind : UInt8} {line : Bytes} {error : RespError}
    (h : ScalarFault kind line error) :
    isTextKind kind = true ∨ asChar kind = ':' ∨ asChar kind = '_' ∨ asChar kind = '#' := by
  cases h with
  | text hkind _ => exact .inl hkind
  | integerText hkind _ | integer hkind _ _ => exact .inr (.inl hkind)
  | null hkind _ => exact .inr (.inr (.inl hkind))
  | boolean hkind _ _ => exact .inr (.inr (.inr hkind))

theorem isTextKind_iff {kind : UInt8} :
    isTextKind kind = true ↔
      asChar kind = '+' ∨ asChar kind = '-' ∨ asChar kind = ',' ∨ asChar kind = '(' := by
  simp [isTextKind]

/-- A text line is refused only because it is not UTF-8. -/
theorem ScalarFault.of_text {kind : UInt8} {line : Bytes} {error : RespError}
    (h : ScalarFault kind line error) (hkind : isTextKind kind = true) :
    ∃ error, fromUtf8 line = .error error := by
  rw [isTextKind_iff] at hkind
  cases h with
  | text _ hline => exact ⟨_, hline⟩
  | integerText hother _ | integer hother _ _ | null hother _ | boolean hother _ _ =>
      simp [hother] at hkind

/-- An integer line is refused only because it is no integer. -/
theorem ScalarFault.of_integer {kind : UInt8} {line : Bytes} {error : RespError}
    (h : ScalarFault kind line error) (hkind : asChar kind = ':') {value : String}
    (hline : fromUtf8 line = .ok value) : ∃ error, parseI64 value = .error error := by
  cases h with
  | text hother _ => simp [isTextKind_iff, hkind] at hother
  | integerText _ hwrong => cases hline.symm.trans hwrong
  | integer _ hother hvalue =>
      cases hline.symm.trans hother
      exact ⟨_, hvalue⟩
  | null hother _ | boolean hother _ _ => simp [hkind] at hother

theorem ScalarFault.of_null {kind : UInt8} {line : Bytes} {error : RespError}
    (h : ScalarFault kind line error) (hkind : asChar kind = '_') : line ≠ [] := by
  cases h with
  | text hother _ => simp [isTextKind_iff, hkind] at hother
  | integerText hother _ | integer hother _ _ | boolean hother _ _ => simp [hkind] at hother
  | null _ hline => exact hline

theorem ScalarFault.of_boolean {kind : UInt8} {line : Bytes} {error : RespError}
    (h : ScalarFault kind line error) (hkind : asChar kind = '#') :
    line ≠ [byteOf 't'] ∧ line ≠ [byteOf 'f'] := by
  cases h with
  | text hother _ => simp [isTextKind_iff, hkind] at hother
  | integerText hother _ | integer hother _ _ | null hother _ => simp [hkind] at hother
  | boolean _ htrue hfalse => exact ⟨htrue, hfalse⟩

/-- A line whose content is accepted. -/
theorem unfaulted_line {kind : UInt8} {line : Bytes}
    (h : ∀ error, ¬ ScalarFault kind line error) : Unfaulted (kind :: line ++ crlf) := by
  intro other text error heq hfault
  obtain ⟨rfl, hline⟩ := List.cons.inj heq
  obtain rfl : line = text := List.append_cancel_right hline
  exact h error hfault

/-- A head of a kind whose content is not looked at. -/
theorem unfaulted_kind {kind : UInt8} {rest : Bytes}
    (h : ∀ line error, ¬ ScalarFault kind line error) : Unfaulted (kind :: rest) := by
  intro other text error heq hfault
  obtain ⟨rfl, -⟩ := List.cons.inj heq
  exact h text error hfault

/-! ## Lines -/

theorem takeUtf8Line_cases {line : Bytes} (hlf : (10 : UInt8) ∉ line) (more : Bytes) :
    (∃ value, fromUtf8 line = .ok value ∧ takeUtf8Line (line ++ crlf ++ more) = .ok (value, more)) ∨
      ∃ error, fromUtf8 line = .error error ∧
        takeUtf8Line (line ++ crlf ++ more) = .error (.invalidUtf8 error) := by
  have hline := takeLine_append (noCrlf_of_not_mem hlf) more
  cases hdecode : fromUtf8 line with
  | ok value => exact .inl ⟨value, rfl, by simp only [takeUtf8Line, hline, ok_bind, hdecode]⟩
  | error error => exact .inr ⟨error, rfl, by simp only [takeUtf8Line, hline, ok_bind, hdecode]⟩

/-- A length the reader accepts is the integer the parser reads. -/
theorem announces_of_parseLen {line : Bytes} {nullable : Bool} {len : Option Nat}
    (hlf : (10 : UInt8) ∉ line) (h : parseLen line nullable = .ok len) :
    (len = none ∧ nullable = true ∧ Announces line (-1)) ∨
      ∃ n, len = some n ∧ Announces line n := by
  unfold parseLen at h
  split at h <;> rename_i hdecode
  · cases h
  split at h <;> rename_i hvalue
  · cases h
  rename_i value
  have hline : ∀ more, takeI64Line (line ++ crlf ++ more) = .ok (value, more) := by
    intro more
    rw [takeI64Line, takeUtf8Line, takeLine_append (noCrlf_of_not_mem hlf), ok_bind]
    simp only [hdecode, ok_bind, hvalue]
  split_ifs at h with hnull hneg
  · exact .inl ⟨(Except.ok.inj h).symm, hnull.1, _, hnull.2, hline⟩
  · exact .inr ⟨_, (Except.ok.inj h).symm, _, by omega, hline⟩

/-! ## Heads -/

/-- A text line is read, or refused because it is not UTF-8. -/
theorem consumes_textLine {parse : Parser Frame} {kind : UInt8} {line : Bytes}
    {build : String → Frame} (hkind : isTextKind kind = true) (hlf : (10 : UInt8) ∉ line)
    (hparse : ∀ input, parse (kind :: input) =
      (takeUtf8Line input >>= fun x => .ok (build x.1, x.2))) :
    Consumes parse [kind :: line ++ crlf] := by
  apply consumes_head
  intro more
  have hinput : parse (kind :: line ++ crlf ++ more) = _ := hparse (line ++ crlf ++ more)
  rcases takeUtf8Line_cases hlf more with ⟨value, hvalue, hline⟩ | ⟨error, herror, hline⟩
  · refine .inl ⟨build value, unfaulted_line fun error hfault => ?_,
      by rw [hinput, hline, ok_bind]⟩
    rcases hfault.of_text hkind with ⟨error, herror⟩
    cases hvalue.symm.trans herror
  · exact .inr ⟨kind, line, _, rfl, .text hkind herror, by rw [hinput, hline, error_bind]⟩

theorem consumes_integerLine {parse : Parser Frame} {kind : UInt8} {line : Bytes}
    (hkind : asChar kind = ':') (hlf : (10 : UInt8) ∉ line)
    (hparse : ∀ input, parse (kind :: input) =
      (takeI64Line input >>= fun x => .ok (.integer x.1, x.2))) :
    Consumes parse [kind :: line ++ crlf] := by
  apply consumes_head
  intro more
  have hinput : parse (kind :: line ++ crlf ++ more) = _ := hparse (line ++ crlf ++ more)
  rcases takeUtf8Line_cases hlf more with ⟨text, htext, hline⟩ | ⟨error, herror, hline⟩
  · cases hvalue : parseI64 text with
    | ok value =>
        refine .inl ⟨.integer value, unfaulted_line fun error hfault => ?_, ?_⟩
        · rcases hfault.of_integer hkind htext with ⟨error, herror⟩
          cases hvalue.symm.trans herror
        · rw [hinput]
          simp only [takeI64Line, hline, ok_bind, hvalue]
    | error error =>
        refine .inr ⟨kind, line, _, rfl, .integer hkind htext hvalue, ?_⟩
        rw [hinput]
        simp only [takeI64Line, hline, ok_bind, hvalue, error_bind]
  · refine .inr ⟨kind, line, _, rfl, .integerText hkind herror, ?_⟩
    rw [hinput]
    simp only [takeI64Line, hline, error_bind]

theorem consumes_nullLine {parse : Parser Frame} {kind : UInt8} {line : Bytes}
    (hkind : asChar kind = '_') (hlf : (10 : UInt8) ∉ line)
    (hparse : ∀ input, parse (kind :: input) =
      (takeLine input >>= fun x => if x.1 ≠ [] then .error .nullWithData else .ok (.null, x.2))) :
    Consumes parse [kind :: line ++ crlf] := by
  apply consumes_head
  intro more
  have hinput : parse (kind :: line ++ crlf ++ more) = _ := hparse (line ++ crlf ++ more)
  rw [takeLine_append (noCrlf_of_not_mem hlf), ok_bind] at hinput
  by_cases hline : line = []
  · rw [if_neg (by simpa using hline)] at hinput
    exact .inl ⟨.null, unfaulted_line fun error hfault => hfault.of_null hkind hline, hinput⟩
  · rw [if_pos hline] at hinput
    exact .inr ⟨kind, line, _, rfl, .null hkind hline, hinput⟩

theorem consumes_booleanLine {parse : Parser Frame} {kind : UInt8} {line : Bytes}
    (hkind : asChar kind = '#') (hlf : (10 : UInt8) ∉ line)
    (hparse : ∀ input, parse (kind :: input) =
      (takeLine input >>= fun x =>
        if x.1 = [byteOf 't'] then .ok (.boolean true, x.2)
        else if x.1 = [byteOf 'f'] then .ok (.boolean false, x.2)
        else .error .invalidBoolean)) :
    Consumes parse [kind :: line ++ crlf] := by
  apply consumes_head
  intro more
  have hinput : parse (kind :: line ++ crlf ++ more) = _ := hparse (line ++ crlf ++ more)
  rw [takeLine_append (noCrlf_of_not_mem hlf), ok_bind] at hinput
  by_cases htrue : line = [byteOf 't']
  · rw [if_pos htrue] at hinput
    exact .inl ⟨.boolean true,
      unfaulted_line fun error hfault => (hfault.of_boolean hkind).1 htrue, hinput⟩
  · rw [if_neg htrue] at hinput
    by_cases hfalse : line = [byteOf 'f']
    · rw [if_pos hfalse] at hinput
      exact .inl ⟨.boolean false,
        unfaulted_line fun error hfault => (hfault.of_boolean hkind).2 hfalse, hinput⟩
    · rw [if_neg hfalse] at hinput
      exact .inr ⟨kind, line, _, rfl, .boolean hkind htrue hfalse, hinput⟩

/-- An inline command ends at the reader's line end, also when it starts with CR
or LF. -/
theorem consumes_inlineLine {parse : Parser Frame} {kind : UInt8} {line : Bytes}
    (hlf : (10 : UInt8) ∉ line) (hkind : ∀ line error, ¬ ScalarFault kind line error)
    (hparse : ∀ input, parse (kind :: input) = parseInline kind input) :
    Consumes parse [kind :: line ++ crlf] := by
  refine consumes_of_ok (unfaulted_kind hkind) fun more => ?_
  have hnocrlf : NoCrlf (kind :: line) := by
    rintro ⟨before, after, heq⟩
    cases before with
    | nil =>
        simp only [crlf, List.nil_append, List.cons_append, List.cons.injEq] at heq
        exact hlf (by simp [← heq.2])
    | cons b before =>
        simp only [crlf, List.cons_append, List.cons.injEq] at heq
        exact hlf (by simp [← heq.2])
  have hinput : parse (kind :: line ++ crlf ++ more) = _ := hparse (line ++ crlf ++ more)
  have hline : takeLine (kind :: (line ++ crlf ++ more)) = .ok (kind :: line, more) :=
    takeLine_append hnocrlf more
  rw [parseInline, hline, ok_bind] at hinput
  exact ⟨_, hinput⟩

theorem isBlobKind_iff {kind : UInt8} :
    isBlobKind kind = true ↔ asChar kind = '$' ∨ asChar kind = '!' ∨ asChar kind = '=' := by
  simp [isBlobKind]

theorem isAggregateKind_iff {kind : UInt8} :
    isAggregateKind kind = true ↔ asChar kind = '*' ∨ asChar kind = '~' ∨ asChar kind = '>' ∨
      asChar kind = '%' ∨ asChar kind = '|' := by
  simp [isAggregateKind]

/-- A line without length is consumed by the parser of its kind. -/
theorem consumes_scalar {parse : Parser Frame} {kind : UInt8} {line : Bytes}
    (hblob : isBlobKind kind = false) (haggregate : isAggregateKind kind = false)
    (hlf : (10 : UInt8) ∉ line) : Consumes (parseFrameInner parse) [kind :: line ++ crlf] := by
  rw [← Bool.not_eq_true, isBlobKind_iff] at hblob
  rw [← Bool.not_eq_true, isAggregateKind_iff] at haggregate
  by_cases htext : isTextKind kind = true
  · rcases isTextKind_iff.mp htext with h | h | h | h
    · exact @consumes_textLine _ _ _ .simpleString htext hlf fun input => by
        simp only [parseFrameInner, h]
    · exact @consumes_textLine _ _ _ .simpleError htext hlf fun input => by
        simp only [parseFrameInner, h]
    · exact @consumes_textLine _ _ _ .double htext hlf fun input => by
        simp only [parseFrameInner, h]
    · exact @consumes_textLine _ _ _ .bigNumber htext hlf fun input => by
        simp only [parseFrameInner, h]
  rw [isTextKind_iff] at htext
  by_cases hinteger : asChar kind = ':'
  · exact consumes_integerLine hinteger hlf fun input => by simp only [parseFrameInner, hinteger]
  by_cases hnull : asChar kind = '_'
  · exact consumes_nullLine hnull hlf fun input => by simp only [parseFrameInner, hnull]
  by_cases hboolean : asChar kind = '#'
  · exact consumes_booleanLine hboolean hlf fun input => by
      simp only [parseFrameInner, hboolean]
  have hkind : ∀ line error, ¬ ScalarFault kind line error := fun line error hfault =>
    hfault.kind.elim (htext ∘ isTextKind_iff.mp)
      fun h => h.elim hinteger fun h => h.elim hnull hboolean
  refine consumes_inlineLine hlf hkind fun input => ?_
  simp only [not_or] at hblob haggregate htext
  unfold parseFrameInner
  split <;> simp_all

/-- The kinds with a length have no content on their line. -/
theorem not_scalarFault_of_blob {kind : UInt8} (h : isBlobKind kind = true) (line : Bytes)
    (error : RespError) : ¬ ScalarFault kind line error := by
  intro hfault
  have hkind := hfault.kind
  rw [isTextKind_iff] at hkind
  rcases isBlobKind_iff.mp h with h | h | h <;> simp [h] at hkind

theorem not_scalarFault_of_aggregate {kind : UInt8} (h : isAggregateKind kind = true)
    (line : Bytes) (error : RespError) : ¬ ScalarFault kind line error := by
  intro hfault
  have hkind := hfault.kind
  rw [isTextKind_iff] at hkind
  rcases isAggregateKind_iff.mp h with h | h | h | h | h <;> simp [h] at hkind

/-- A null blob is consumed; only one kind allows it. -/
theorem consumes_nullBlob {parse : Parser Frame} {kind : UInt8} {line : Bytes}
    (hblob : isBlobKind kind = true) (hlf : (10 : UInt8) ∉ line)
    (hlen : parseLen line (asChar kind = '$') = .ok none) :
    Consumes (parseFrameInner parse) [kind :: line ++ crlf] := by
  rcases announces_of_parseLen hlf hlen with ⟨-, hkind, hline⟩ | ⟨n, hn, -⟩
  · rw [decide_eq_true_eq] at hkind
    refine consumes_of_ok (unfaulted_kind (not_scalarFault_of_blob hblob))
      fun more => ⟨.bulkString none, ?_⟩
    have hnull := parseOptionalBlob_null hline more
    simp only [List.cons_append, parseFrameInner, hkind, hnull, ok_bind]
  · cases hn

theorem consumes_blob {parse : Parser Frame} {kind : UInt8} {line body : Bytes}
    (hblob : isBlobKind kind = true) (hlf : (10 : UInt8) ∉ line)
    (hlen : parseLen line (asChar kind = '$') = .ok (some body.length)) :
    Consumes (parseFrameInner parse) [kind :: line ++ crlf ++ body ++ crlf] := by
  rcases announces_of_parseLen hlf hlen with ⟨hn, -, -⟩ | ⟨n, hn, hline⟩
  · cases hn
  obtain rfl := Option.some.inj hn
  refine consumes_of_ok (unfaulted_kind (not_scalarFault_of_blob hblob)) fun more => ?_
  have hoptional := parseOptionalBlob_append hline more
  have hrequired := parseRequiredBlob_append hline more
  simp only [List.append_assoc] at hoptional hrequired
  rcases isBlobKind_iff.mp hblob with h | h | h
  · refine ⟨.bulkString (some body), ?_⟩
    simp only [List.cons_append, List.append_assoc, parseFrameInner, h, hoptional, ok_bind]
  · refine ⟨.bulkError body, ?_⟩
    simp only [List.cons_append, List.append_assoc, parseFrameInner, h, hrequired, ok_bind]
  · refine ⟨.verbatimString body, ?_⟩
    simp only [List.cons_append, List.append_assoc, parseFrameInner, h, hrequired, ok_bind]

theorem consumes_nullAggregate {parse : Parser Frame} {kind : UInt8} {line : Bytes}
    (haggregate : isAggregateKind kind = true) (hlf : (10 : UInt8) ∉ line)
    (hlen : parseLen line (asChar kind = '*') = .ok none) :
    Consumes (parseFrameInner parse) [kind :: line ++ crlf] := by
  rcases announces_of_parseLen hlf hlen with ⟨-, hkind, hline⟩ | ⟨n, hn, -⟩
  · rw [decide_eq_true_eq] at hkind
    refine consumes_of_ok (unfaulted_kind (not_scalarFault_of_aggregate haggregate))
      fun more => ⟨.array none, ?_⟩
    have hnull : parseOptionalSequence parse .array (line ++ crlf ++ more) = _ :=
      parseOptionalSequence_null hline more
    simp only [List.cons_append, parseFrameInner, hkind, hnull]
  · cases hn

/-- An aggregate is consumed with the children it announces.  The reader's bound
by remaining capacity and the parser's bound by remaining bytes agree, because
the children were read. -/
theorem consumes_aggregate {parse : Parser Frame} {kind : UInt8} {line : Bytes}
    {heads : List Bytes} {count : Nat} (haggregate : isAggregateKind kind = true)
    (hlf : (10 : UInt8) ∉ line) (hlen : parseLen line (asChar kind = '*') = .ok (some count))
    (hsegment : Consumes
      (readItems parse (if isPairedKind kind then count * 2 else count)) heads)
    (hfits : 3 * (if isPairedKind kind then count * 2 else count) ≤ heads.flatten.length) :
    Consumes (parseFrameInner parse) ((kind :: line ++ crlf) :: heads) := by
  have hhead : Unfaulted (kind :: line ++ crlf) :=
    unfaulted_kind (not_scalarFault_of_aggregate haggregate)
  rcases announces_of_parseLen hlf hlen with ⟨hn, -, -⟩ | ⟨n, hn, hline⟩
  · cases hn
  obtain rfl := Option.some.inj hn
  by_cases hpaired : isPairedKind kind = true
  · rw [if_pos hpaired] at hsegment hfits
    rw [Nat.mul_comm] at hsegment
    have hread : ∀ build more, parseMapLike parse build (line ++ crlf ++ (heads.flatten ++ more)) =
        (readItems parse (2 * count) (heads.flatten ++ more)).map fun read =>
          (build (pairUp read.1), read.2) := by
      intro build more
      refine parseMapLike_eq hline ?_
      rw [List.length_append]
      omega
    rcases (by simpa [isPairedKind] using hpaired : asChar kind = '%' ∨ asChar kind = '|')
      with h | h
    · refine hsegment.map (f := fun items => .map (pairUp items)) hhead fun more => ?_
      simp only [List.cons_append, parseFrameInner, h, hread]
    · refine hsegment.map (f := fun items => .attribute (pairUp items)) hhead fun more => ?_
      simp only [List.cons_append, parseFrameInner, h, hread]
  · rw [if_neg hpaired] at hsegment hfits
    have hlength : ∀ more : Bytes, 3 * count ≤ (heads.flatten ++ more).length := by
      intro more
      rw [List.length_append]
      omega
    have hunpaired : asChar kind = '*' ∨ asChar kind = '~' ∨ asChar kind = '>' := by
      rcases isAggregateKind_iff.mp haggregate with h | h | h | h | h
      · exact .inl h
      · exact .inr (.inl h)
      · exact .inr (.inr h)
      · exact absurd (by simp [isPairedKind, h]) hpaired
      · exact absurd (by simp [isPairedKind, h]) hpaired
    rcases hunpaired with h | h | h
    · refine hsegment.map (f := fun items => .array (some items)) hhead fun more => ?_
      have hread :
          parseOptionalSequence parse .array (line ++ crlf ++ (heads.flatten ++ more)) = _ :=
        parseOptionalSequence_eq hline (hlength more)
      simp only [List.cons_append, parseFrameInner, h, hread]
    · refine hsegment.map (f := .set) hhead fun more => ?_
      have hread : parseSequence parse .set (line ++ crlf ++ (heads.flatten ++ more)) = _ :=
        parseSequence_eq hline (hlength more)
      simp only [List.cons_append, parseFrameInner, h, hread]
    · refine hsegment.map (f := .push) hhead fun more => ?_
      have hread : parseSequence parse .push (line ++ crlf ++ (heads.flatten ++ more)) = _ :=
        parseSequence_eq hline (hlength more)
      simp only [List.cons_append, parseFrameInner, h, hread]

/-- Heads are not empty. -/
theorem eq_nil_of_flatten {heads : List Bytes}
    (hheads : ∀ head ∈ heads, ∃ children, IsHead head children) (h : heads.flatten = []) :
    heads = [] := by
  rw [List.flatten_eq_nil_iff] at h
  refine List.eq_nil_iff_forall_not_mem.mpr fun head hmem => ?_
  rcases hheads head hmem with ⟨children, hhead⟩
  have hlength := hhead.length_ge
  simp [h head hmem] at hlength

/-- The parser reads one head exactly as far as the reader copied it, and its
children after it. -/
theorem IsHead.consumes {parse : Parser Frame} {head : Bytes} {heads : List Bytes}
    {children : Nat} (hhead : IsHead head children)
    (hheads : ∀ head ∈ heads, ∃ children, IsHead head children)
    (hsegment : Consumes (readItems parse children) heads)
    (hfits : 3 * children ≤ heads.flatten.length) :
    Consumes (parseFrameInner parse) (head :: heads) := by
  have hleaf : children = 0 → heads = [] := by
    rintro rfl
    exact eq_nil_of_flatten hheads hsegment.eq_nil
  cases hhead with
  | scalar hblob haggregate hlf =>
      rw [hleaf rfl]
      exact consumes_scalar hblob haggregate hlf
  | nullBlob hblob hlf hlen =>
      rw [hleaf rfl]
      exact consumes_nullBlob hblob hlf hlen
  | blob hblob hlf hlen =>
      rw [hleaf rfl]
      exact consumes_blob hblob hlf hlen
  | nullAggregate hblob haggregate hlf hlen =>
      rw [hleaf rfl]
      exact consumes_nullAggregate haggregate hlf hlen
  | aggregate hblob haggregate hlf hlen =>
      exact consumes_aggregate haggregate hlf hlen hsegment hfits

/-! ## The stack is the recursion -/

/-- Closing a level of the stack is reading its unread children.  The parser may
nest as much deeper as the stack may still grow. -/
theorem readLoop_consumes {s s' : ReadState} (h : readLoop s = .ok s') {k : Nat}
    {levels : List Nat} (hpending : s.pending = k :: levels) {depth : Nat}
    (hdepth : levels.length + depth = maxFrameDepth) :
    ∃ heads mid, mid.pending = levels ∧ mid.raw = s.raw ++ heads.flatten ∧
      s.input = heads.flatten ++ mid.input ∧ readLoop mid = .ok s' ∧ mid.measure < s.measure ∧
      3 * k ≤ heads.flatten.length ∧ (∀ head ∈ heads, ∃ children, IsHead head children) ∧
      Consumes (readItems (parseFrameAt depth) k) heads ∧
      (s.raw.length ≤ maxFrameBytes → mid.raw.length ≤ maxFrameBytes) := by
  induction hn : s.measure using Nat.strong_induction_on generalizing s k levels depth with
  | _ n ih =>
      rcases readLoop_cases h with ⟨hnil, -⟩ | ⟨-, next, hstep, hnext⟩
      · rw [hpending] at hnil
        cases hnil
      have hmeasure : next.measure < n := hn ▸ readStep_measure (by simp [hpending]) hstep
      rcases readStep_cases hstep with ⟨hnil, -⟩ | ⟨levels', hlevels, rfl⟩ |
        ⟨remaining, levels', head, children, rest, hlevels, hlevel, -, hhead, hinput, hfits, rfl⟩
      · rw [hpending] at hnil
        cases hnil
      · -- an exhausted level closes without reading
        obtain ⟨rfl, rfl⟩ := List.cons.inj (hpending.symm.trans hlevels)
        exact ⟨[], _, rfl, by simp, by simp, hnext, hmeasure, by simp, by simp,
          consumes_readItems_zero, id⟩
      · obtain ⟨rfl, rfl⟩ := List.cons.inj (hpending.symm.trans hlevels)
        obtain ⟨depth, rfl⟩ : ∃ d, depth = d + 1 := ⟨depth - 1, by omega⟩
        have hraw : (s.raw ++ head).length ≤ maxFrameBytes := by omega
        -- the children of the head, then the siblings that are left at this level
        obtain ⟨body, mid, hmid, hmidRaw, hmidInput, hmidLoop, hmidMeasure, hbodyFits, hbodyHeads,
            hbody, hmidSize⟩ :
            ∃ body mid, mid.pending = remaining :: levels ∧
              mid.raw = s.raw ++ head ++ body.flatten ∧
              rest = body.flatten ++ mid.input ∧ readLoop mid = .ok s' ∧ mid.measure < n ∧
              3 * children ≤ body.flatten.length ∧
              (∀ head ∈ body, ∃ children, IsHead head children) ∧
              Consumes (readItems (parseFrameAt depth) children) body ∧
              mid.raw.length ≤ maxFrameBytes := by
          by_cases hchildren : children > 0
          · rw [if_pos hchildren] at hnext hmeasure
            obtain ⟨body, mid, hmid, hmidRaw, hmidInput, hmidLoop, hmidMeasure, hbodyFits,
              hbodyHeads, hbody, hmidSize⟩ := ih _ hmeasure hnext rfl
                (by rw [List.length_cons]; omega : (remaining :: levels).length + depth = _) rfl
            exact ⟨body, mid, hmid, hmidRaw, hmidInput, hmidLoop, hmidMeasure.trans hmeasure,
              hbodyFits, hbodyHeads, hbody, hmidSize hraw⟩
          · rw [if_neg hchildren] at hnext hmeasure
            obtain rfl : children = 0 := by omega
            exact ⟨[], _, rfl, by simp, by simp, hnext, hmeasure, by simp, by simp,
              consumes_readItems_zero, hraw⟩
        obtain ⟨tail, last, hlast, hlastRaw, hlastInput, hlastLoop, hlastMeasure, htailFits,
          htailHeads, htail, hlastSize⟩ := ih _ hmidMeasure hmidLoop hmid hdepth rfl
        refine ⟨(head :: body) ++ tail, last, hlast, ?_, ?_, hlastLoop,
          hlastMeasure.trans hmidMeasure, ?_, ?_,
          Consumes.readItems_succ (hhead.consumes hbodyHeads hbody hbodyFits) htail,
          fun _ => hlastSize hmidSize⟩
        · rw [hlastRaw, hmidRaw]
          simp
        · rw [hinput, hmidInput, hlastInput]
          simp
        · have := hhead.length_ge
          rw [List.flatten_append, List.flatten_cons]
          simp only [List.length_append]
          omega
        · exact List.forall_mem_append.mpr
            ⟨List.forall_mem_cons.mpr ⟨⟨children, hhead⟩, hbodyHeads⟩, htailHeads⟩

/-- What the reader returns is what follows in the stream, and is one frame to the
parser. -/
theorem readRawFrame_consumes {s p rest : Bytes} (h : readRawFrame s = .ok (p, rest)) :
    s = p ++ rest ∧ p.length ≤ maxFrameBytes ∧ ∃ heads : List Bytes, p = heads.flatten ∧
      (∀ head ∈ heads, ∃ children, IsHead head children) ∧
      Consumes (readItems (parseFrameAt maxFrameDepth) 1) heads := by
  obtain ⟨last, hloop, hlast⟩ := bind_eq_ok_iff.mp h
  obtain ⟨rfl, rfl⟩ := Prod.mk.inj (Except.ok.inj hlast)
  obtain ⟨heads, mid, hpending, hraw, hinput, hmid, -, -, hheads, hsegment, hsize⟩ :=
    readLoop_consumes hloop rfl (by simp : ([] : List Nat).length + maxFrameDepth = maxFrameDepth)
  rw [readLoop_done hpending] at hmid
  obtain rfl := Except.ok.inj hmid
  simp only [List.nil_append] at hraw
  exact ⟨by rw [hraw]; exact hinput, hsize (by simp), heads, hraw, hheads, hsegment⟩

/-- A frame whose kind has no children is one head. -/
theorem readRawFrame_head {s p rest : Bytes} (h : readRawFrame s = .ok (p, rest)) {kind : UInt8}
    (hkind : p.head? = some kind) (haggregate : isAggregateKind kind = false) :
    ∃ children, IsHead p children := by
  have hstream := (readRawFrame_consumes h).1
  have hfirst : s.head? = some kind := by
    rw [hstream, List.head?_append, hkind, Option.some_or]
  rcases bind_eq_ok_iff.mp h with ⟨last, hloop, hlast⟩
  rcases readLoop_cases hloop with ⟨hnil, -⟩ | ⟨-, next, hstep, hnext⟩
  · cases hnil
  rcases readStep_cases hstep with ⟨hnil, -⟩ | ⟨levels, hlevels, -⟩ |
    ⟨remaining, levels, head, children, after, hlevels, -, -, hhead, hinput, -, rfl⟩
  · cases hnil
  · cases hlevels
  · cases hlevels
    have hscalar : children = 0 := by
      cases hhead with
      | aggregate hblob hwrong =>
          simp only at hinput
          rw [hinput] at hfirst
          cases hfirst
          rw [haggregate] at hwrong
          cases hwrong
      | _ => rfl
    subst hscalar
    rw [if_neg (lt_irrefl 0), readLoop_step (by simp) (readStep_close rfl), readLoop_done rfl]
      at hnext
    cases hnext
    cases hlast
    exact ⟨0, hhead⟩

/-- A buffer the reader accepts is a prefix of the stream: the heads that the reader copied.  The
parser reads all of it, or refuses the content of one scalar line, the first one that is faulty. -/
theorem parseFrame_of_readRawFrame {s p rest : Bytes} (h : readRawFrame s = .ok (p, rest)) :
    s = p ++ rest ∧ p.length ≤ maxFrameBytes ∧ ∃ heads : List Bytes, p = heads.flatten ∧
      (∀ head ∈ heads, ∃ children, IsHead head children) ∧
      ((∃ f, parseFrameAt maxFrameDepth p = .ok (f, []) ∧ parseFrame p = .ok f ∧
          ∀ head ∈ heads, Unfaulted head) ∨
        ∃ sound kind line later error, heads = sound ++ (kind :: line ++ crlf) :: later ∧
          (∀ head ∈ sound, Unfaulted head) ∧ ScalarFault kind line error ∧
          parseFrame p = .error error) := by
  obtain ⟨hstream, hfits, heads, hp, hheads, hsegment⟩ := readRawFrame_consumes h
  refine ⟨hstream, hfits, heads, hp, hheads, ?_⟩
  have hparse : parseFrame p = (parseFrameAt maxFrameDepth p >>= fun x =>
      if x.2 ≠ [] then .error (.trailingBytes (p.length - x.2.length)) else .ok x.1) := by
    rw [parseFrame, if_neg (by omega)]
  rcases hsegment [] with ⟨fs, hsound, hfs⟩ |
    ⟨error, ⟨sound, kind, line, later, hsplit, hsound, hfault⟩, herror⟩
  · rw [List.append_nil, ← hp] at hfs
    simp only [readItems, bind_eq_ok_iff, Prod.exists, Except.ok.injEq, Prod.mk.injEq] at hfs
    obtain ⟨f, rest, hf, fs, rest', ⟨-, rfl⟩, -, rfl⟩ := hfs
    exact .inl ⟨f, hf, by rw [hparse, hf, ok_bind]; simp, hsound⟩
  · rw [List.append_nil, ← hp] at herror
    refine .inr ⟨sound, kind, line, later, error, hsplit, hsound, hfault, ?_⟩
    simp only [readItems, bind_eq_error_iff, reduceCtorEq, and_false, exists_false,
      or_false] at herror
    rw [hparse, herror, error_bind]

/-- An integer line that is not an integer, before an inline command. -/
theorem parseFrame_of_readRawFrame_badInteger :
    [58, 120, 13, 10, 80] = ([58, 120, 13, 10] ++ [80] : Bytes) ∧ 4 ≤ maxFrameBytes ∧
      ∃ heads : List Bytes, [58, 120, 13, 10] = heads.flatten ∧
        (∀ head ∈ heads, ∃ children, IsHead head children) ∧
        ((∃ f, parseFrameAt maxFrameDepth [58, 120, 13, 10] = .ok (f, []) ∧
            parseFrame [58, 120, 13, 10] = .ok f ∧ ∀ head ∈ heads, Unfaulted head) ∨
          ∃ sound kind line later error, heads = sound ++ (kind :: line ++ crlf) :: later ∧
            (∀ head ∈ sound, Unfaulted head) ∧ ScalarFault kind line error ∧
            parseFrame [58, 120, 13, 10] = .error error) := by
  have hhead : readStep { raw := [], pending := [1], input := [58, 120, 13, 10, 80] } =
      .ok { raw := [58, 120, 13, 10], pending := [0], input := [80] } := rfl
  have hclose : readStep { raw := [58, 120, 13, 10], pending := [0], input := [80] } =
      .ok { raw := [58, 120, 13, 10], pending := [], input := [80] } := rfl
  have hread : readRawFrame [58, 120, 13, 10, 80] = .ok ([58, 120, 13, 10], [80]) := by
    rw [readRawFrame, readLoop_step (by simp) hhead, readLoop_step (by simp) hclose,
      readLoop_done rfl]
    rfl
  exact parseFrame_of_readRawFrame hread

end Resp
end EvilResp
