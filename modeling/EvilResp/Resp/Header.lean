import EvilResp.Resp.Path
import EvilResp.Resp.RoundTrip

/-!
# Length headers

An encoder that overrides one header writes the same bytes as the ordinary one,
except for the digits of that header.

Main results:

- Theorem {lit}`Frame.encodeInto_outside`: overrides for other frames have no effect.
- Theorem {lit}`Frame.encodeInto_splice`: an override replaces the digits of the header
  at one position.
-/

namespace EvilResp
namespace Resp
namespace Frame

open Library

theorem length_visit (f : Frame) : ∀ path level, (f.visit path level).length = f.size := by
  induction f using childInduction with
  | step f ih =>
      intro path level
      have hlengths : ∀ bs : List (Step × Frame), (∀ b ∈ bs, b.2 ∈ f.children) →
          (bs.flatMap fun b => b.2.visit (path ++ b.1.text) (level + 1)).length =
            ((bs.map Prod.snd).map size).sum := by
        intro bs
        induction bs with
        | nil => simp
        | cons b bs ihbs =>
            intro hbs
            obtain ⟨hb, hbs⟩ := List.forall_mem_cons.mp hbs
            rw [List.flatMap_cons, List.length_append, ih b.2 hb, ihbs hbs]
            simp
      rw [visit_eq, List.length_cons, hlengths f.branches fun b => mem_children_of_mem_branches,
        branches_snd, size_eq]
      omega

/-- A header writes its kind, the digits of its length, the end of its line and
something no override changes. -/
theorem head_declared {f : Frame} {n : Int} (h : f.declaredLength = some n) :
    ∃ kind body, ∀ replacement : Option String,
      f.head replacement = kind :: asBytes (replacement.getD (toString n)) ++ crlf ++ body := by
  have hnull : toString (-1 : Int) = "-1" := rfl
  have hlength {m : Nat} (hm : (m : Int) = n) : toString n = toString m := by
    rw [← hm, toString_natCast]
  cases f with
  | bulkString bytes =>
      cases bytes with
      | none =>
          obtain rfl := Option.some.inj h
          exact ⟨byteOf '$', [], fun replacement => by simp [head, pushLine, hnull]⟩
      | some bytes =>
          have hn := hlength (Option.some.inj h)
          exact ⟨byteOf '$', bytes ++ crlf, fun replacement => by
            simp [head, pushBlob, pushLine, hn]⟩
  | array items =>
      cases items with
      | none =>
          obtain rfl := Option.some.inj h
          exact ⟨byteOf '*', [], fun replacement => by simp [head, pushLine, hnull]⟩
      | some items =>
          have hn := hlength (Option.some.inj h)
          exact ⟨byteOf '*', [], fun replacement => by simp [head, pushLine, hn]⟩
  | bulkError bytes =>
      have hn := hlength (Option.some.inj h)
      exact ⟨byteOf '!', bytes ++ crlf, fun replacement => by simp [head, pushBlob, pushLine, hn]⟩
  | verbatimString bytes =>
      have hn := hlength (Option.some.inj h)
      exact ⟨byteOf '=', bytes ++ crlf, fun replacement => by simp [head, pushBlob, pushLine, hn]⟩
  | set items =>
      have hn := hlength (Option.some.inj h)
      exact ⟨byteOf '~', [], fun replacement => by simp [head, pushLine, hn]⟩
  | push items =>
      have hn := hlength (Option.some.inj h)
      exact ⟨byteOf '>', [], fun replacement => by simp [head, pushLine, hn]⟩
  | map items =>
      have hn := hlength (Option.some.inj h)
      exact ⟨byteOf '%', [], fun replacement => by simp [head, pushLine, hn]⟩
  | «attribute» items =>
      have hn := hlength (Option.some.inj h)
      exact ⟨byteOf '|', [], fun replacement => by simp [head, pushLine, hn]⟩
  | _ => cases h

/-- A list of frames is written as usual, if each of its frames is. -/
theorem encodeItems_outside_of {header : Nat → Option String} {fs : List Frame} {index : Nat}
    (h : ∀ f ∈ fs, ∀ start, (∀ j, start ≤ j → j < start + f.size → header j = none) →
      (f.encodeInto header start).1 = f.encode)
    (hheader : ∀ j, index ≤ j → j < index + (fs.map size).sum → header j = none) :
    (encodeItems header fs index).1 = fs.flatMap encode := by
  induction fs generalizing index with
  | nil => rfl
  | cons f fs ih =>
      obtain ⟨hf, hfs⟩ := List.forall_mem_cons.mp h
      simp only [List.map_cons, List.sum_cons] at hheader
      have hfirst : (f.encodeInto header index).1 = f.encode :=
        hf index fun j hlow hhigh => hheader j hlow (by omega)
      have hrest : (encodeItems header fs (index + f.size)).1 = fs.flatMap encode :=
        ih hfs fun j hlow hhigh => hheader j (by omega) (by omega)
      simp only [encodeItems_cons, encodeInto_snd, hfirst, hrest, List.flatMap_cons]

/-- Overrides for other frames have no effect. -/
theorem encodeInto_outside {header : Nat → Option String} (f : Frame) :
    ∀ index, (∀ j, index ≤ j → j < index + f.size → header j = none) →
      (f.encodeInto header index).1 = f.encode := by
  induction f using childInduction with
  | step f ih =>
      intro index hheader
      rw [size_eq] at hheader
      have hchildren : (encodeItems header f.children (index + 1)).1 = f.children.flatMap encode :=
        encodeItems_outside_of ih fun j hlow hhigh => hheader j (by omega) (by omega)
      rw [encodeInto_eq, encode_eq]
      simp only [hchildren, hheader index le_rfl (by omega)]

theorem encodeItems_outside {header : Nat → Option String} (fs : List Frame) {index : Nat}
    (hheader : ∀ j, index ≤ j → j < index + (fs.map size).sum → header j = none) :
    (encodeItems header fs index).1 = fs.flatMap encode :=
  encodeItems_outside_of (fun f _ => encodeInto_outside f) hheader

/-- Ask for one override. -/
def overrideAt (target : Nat) (replacement : String) (index : Nat) : Option String :=
  if index = target then some replacement else none

/-- The bytes of a frame that encloses another one, with other digits in the header of
the inner frame. -/
def Spliced (outer : Bytes) (inner : Frame) (n : Int) (replacement : String) (bytes : Bytes) :
    Prop :=
  ∃ kind tail before after,
    inner.encode = kind :: asBytes (toString n) ++ tail ∧
    outer = before ++ inner.encode ++ after ∧
    bytes = before ++ (kind :: asBytes replacement ++ tail) ++ after

/-- The bytes written before the child that a step leads to, and before a place in it. -/
def bytesBeforeChild (inner : Frame → Bytes) (step : Step) : List (Step × Frame) → Bytes
  | [] => []
  | branch :: branches =>
      if branch.1 = step then inner branch.2
      else branch.2.encode ++ bytesBeforeChild inner step branches

/-- The bytes written before the frame at a position. -/
def bytesBefore : List Step → Frame → Bytes
  | [], _ => []
  | step :: p, f => f.head none ++ bytesBeforeChild (bytesBefore p) step f.branches

/-- Other digits in the header of an inner frame, which starts after known bytes. -/
def SplicedAfter (before outer : Bytes) (inner : Frame) (n : Int) (replacement : String)
    (bytes : Bytes) : Prop :=
  ∃ kind body after,
    inner.encode = kind :: asBytes (toString n) ++ crlf ++ body ∧
    outer = before ++ inner.encode ++ after ∧
    bytes = before ++ (kind :: asBytes replacement ++ crlf ++ body) ++ after

theorem SplicedAfter.spliced {before outer bytes : Bytes} {inner : Frame} {n : Int}
    {replacement : String} (h : SplicedAfter before outer inner n replacement bytes) :
    Spliced outer inner n replacement bytes := by
  rcases h with ⟨kind, body, after, hinner, houter, hbytes⟩
  exact ⟨kind, crlf ++ body, before, after, by simpa using hinner, houter, by simpa using hbytes⟩

theorem SplicedAfter.wrap {before outer bytes : Bytes} {inner : Frame} {n : Int}
    {replacement : String} (h : SplicedAfter before outer inner n replacement bytes)
    (front back : Bytes) :
    SplicedAfter (front ++ before) (front ++ outer ++ back) inner n replacement
      (front ++ bytes ++ back) := by
  rcases h with ⟨kind, body, after, hinner, rfl, rfl⟩
  exact ⟨kind, body, after ++ back, hinner, by simp, by simp⟩

/-- The frame with an index, counted through a list of children, is in one of them. -/
theorem encodeItems_splice_of {v : Visited} {n : Int} {replacement : String} {q : List Step}
    {level : Nat} {bs : List (Step × Frame)} (hnodup : (bs.map Prod.fst).Nodup)
    (hsplice : ∀ b ∈ bs, ∀ k q level index, (b.2.visit (pathText q) level)[k]? = some v →
      ∃ p, b.2.at? p = some v.frame ∧ v.path = pathText (q ++ p) ∧
        SplicedAfter (b.2.bytesBefore p) b.2.encode v.frame n replacement
          (b.2.encodeInto (overrideAt (index + k) replacement) index).1) :
    ∀ k start,
      (bs.flatMap fun b => b.2.visit (pathText (q ++ [b.1])) level)[k]? = some v →
      ∃ b ∈ bs, ∃ p, b.2.at? p = some v.frame ∧ v.path = pathText (q ++ b.1 :: p) ∧
        SplicedAfter (bytesBeforeChild (bytesBefore p) b.1 bs)
          ((bs.map Prod.snd).flatMap encode) v.frame n replacement
          (encodeItems (overrideAt (start + k) replacement) (bs.map Prod.snd) start).1 := by
  induction bs with
  | nil => simp
  | cons b bs ih =>
      intro k start hk
      rcases List.forall_mem_cons.mp hsplice with ⟨hb, hbs⟩
      rw [List.map_cons, List.nodup_cons] at hnodup
      rw [List.flatMap_cons] at hk
      simp only [List.map_cons, List.flatMap_cons, encodeItems_cons, encodeInto_snd]
      by_cases hfirst : k < b.2.size
      · rw [List.getElem?_append_left (by rwa [length_visit])] at hk
        have hrest : (encodeItems (overrideAt (start + k) replacement) (bs.map Prod.snd)
            (start + b.2.size)).1 = (bs.map Prod.snd).flatMap encode := by
          refine encodeItems_outside _ fun j hlow _ => ?_
          exact if_neg (by omega)
        rcases hb k _ _ start hk with ⟨p, hp, hpath, hbytes⟩
        refine ⟨b, List.mem_cons_self, p, hp, by simpa using hpath, ?_⟩
        rw [hrest, bytesBeforeChild, if_pos rfl]
        exact hbytes.wrap [] _
      · rw [List.getElem?_append_right (by rw [length_visit]; omega), length_visit] at hk
        have hskip : (b.2.encodeInto (overrideAt (start + k) replacement) start).1 = b.2.encode := by
          refine encodeInto_outside _ start fun j _ hhigh => ?_
          exact if_neg (by omega)
        rcases ih hnodup.2 hbs (k - b.2.size) (start + b.2.size) hk with ⟨c, hc, p, hp, hpath, hbytes⟩
        have hindex : start + b.2.size + (k - b.2.size) = start + k := by omega
        have hne : b.1 ≠ c.1 := fun heq => hnodup.1 (List.mem_map.mpr ⟨c, hc, heq.symm⟩)
        refine ⟨c, List.mem_cons_of_mem _ hc, p, hp, hpath, ?_⟩
        rw [hindex] at hbytes
        rw [hskip, bytesBeforeChild, if_neg hne]
        have hwrap := hbytes.wrap b.2.encode []
        rwa [List.append_nil, List.append_nil] at hwrap

/-- An override replaces the digits of the header at one position. -/
theorem encodeInto_splice {v : Visited} {n : Int} {replacement : String} (f : Frame)
    (hn : v.frame.declaredLength = some n) :
    ∀ k q level index, (f.visit (pathText q) level)[k]? = some v →
      ∃ p, f.at? p = some v.frame ∧ v.path = pathText (q ++ p) ∧
        SplicedAfter (f.bytesBefore p) f.encode v.frame n replacement
          (f.encodeInto (overrideAt (index + k) replacement) index).1 := by
  induction f using childInduction with
  | step f ih =>
      intro k q level index hv
      rw [visit_eq] at hv
      rw [encodeInto_eq]
      cases k with
      | zero =>
          cases hv
          rcases head_declared hn with ⟨kind, body, hhead⟩
          have hchildren : (encodeItems (overrideAt (index + 0) replacement) f.children
              (index + 1)).1 = f.children.flatMap encode := by
            refine encodeItems_outside _ fun j hlow _ => ?_
            exact if_neg (by omega)
          refine ⟨[], rfl, by simp, kind, body ++ f.children.flatMap encode, [], ?_, ?_, ?_⟩
          · simp [encode_eq f, hhead]
          · simp [bytesBefore]
          · simp only [hchildren]
            simp [overrideAt, hhead, bytesBefore]
      | succ k =>
          rw [List.getElem?_cons_succ] at hv
          simp only [← pathText_snoc] at hv
          rcases encodeItems_splice_of f.steps_nodup
            (fun b hb => ih b.2 (mem_children_of_mem_branches hb)) k (index + 1) hv with
            ⟨b, hb, p, hp, hpath, hbytes⟩
          have hindex : index + 1 + k = index + (k + 1) := by omega
          have hself : overrideAt (index + (k + 1)) replacement index = none := if_neg (by omega)
          refine ⟨b.1 :: p, ?_, hpath, ?_⟩
          · rw [at?, Tree.at?, mem_branches_iff.mp hb]
            exact hp
          · rw [branches_snd, hindex] at hbytes
            rw [hself, encode_eq f, bytesBefore]
            have hwrap := hbytes.wrap (f.head none) []
            rwa [List.append_nil, List.append_nil] at hwrap

end Frame
end Resp
end EvilResp
