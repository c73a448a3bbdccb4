import LogRelay.Proofs.Json.Strings
import LogRelay.Record.Document
import Mathlib.Data.List.Nodup
/-!
# Flat objects in documents

An object of texts and truth values under different names is written in ASCII, and what is written is
read back: with the same names in the same order, with the same truth values, and with the same texts
but for their surrogate pairs, which are joined.

## Main definitions

* `Json.IsFlat`: a text or a truth value.
* `Json.readBack`: what is read of a flat value.

## Main statements

* `parse_render_obj`: a flat object is read back.
* `parseBytes_toBytes`: the bytes of a flat object are read as its document.
-/
namespace LogRelay.Json

open Reader

/-- A text or a truth value. -/
def IsFlat : Json → Prop
  | .bool _ | .str _ => True
  | _ => False

/-- What is read of a flat value that has been written. -/
def readBack : Json → Json
  | .str t => .str (Encoding.joinPairs [] t)
  | v => v

variable {n : Nat} {members : List (Text × Json)} {key : Text} {stack : List Frame}

/-! ## Members -/

/-- Two machines that take the next code point alike take all that follows alike. -/
theorem take_congr {r r' : Reader} {c : CodePoint} (h : r.step c = r'.step c) (t : Text) :
    r.take (c :: t) = r'.take (c :: t) := by
  rw [take, take, List.foldlM_cons, List.foldlM_cons, h]

/-- The name of a member. -/
theorem take_name (hs : key.IsUnpaired) {e : Expect} (he : e = .key ∨ e = .firstKey)
    (members : List (Text × Json)) (last : Text) (stack : List Frame) (t : Text) :
    (⟨n, .object members last :: stack, e, .gap⟩ : Reader).take (renderString key ++ t) =
      (⟨n, .object members key :: stack, .colon, .gap⟩ : Reader).take t := by
  obtain ⟨read, high, htake⟩ := take_renderString key ⟨n, .object members last :: stack, e, .gap⟩
  rw [Encoding.joinPairs_eq_iff.2 hs] at htake
  have hstart : (⟨n, .object members last :: stack, e, .gap⟩ : Reader).step '"' =
      .ok ⟨n, .object members last :: stack, e, .string [] false⟩ := by
    rcases he with rfl | rfl <;> rfl
  rw [renderString, List.cons_append, List.cons_append, take_cons hstart, take_append htake]
  rcases he with rfl | rfl <;> rfl

/-- The value of a member, up to the character that follows it. -/
theorem take_value {v : Json} (hv : v.IsFlat) (members : List (Text × Json)) (key : Text)
    (stack : List Frame) {c : CodePoint} (hc : isLetter c = false) (t : Text) :
    (⟨n, .object members key :: stack, .value, .gap⟩ : Reader).take (v.render ++ c :: t) =
      (⟨n, .object (Members.insert key v.readBack members) key :: stack, .separator, .gap⟩ : Reader).take
        (c :: t) := by
  cases v with
  | bool b =>
      have hword : (⟨n, .object members key :: stack, .value, .gap⟩ : Reader).take (Json.render (.bool b)) =
          .ok ⟨n, .object members key :: stack, .value, .word (Json.render (.bool b)).reverse⟩ := by
        cases b <;> rfl
      rw [take_append hword]
      apply take_congr
      simp only [step, hc, Bool.false_eq_true, if_false, List.reverse_reverse]
      cases b <;> rfl
  | str text =>
      obtain ⟨read, high, htake⟩ :=
        take_renderString text ⟨n, .object members key :: stack, .value, .gap⟩
      have hstart : (⟨n, .object members key :: stack, .value, .gap⟩ : Reader).step '"' =
          .ok ⟨n, .object members key :: stack, .value, .string [] false⟩ := rfl
      rw [render, renderString, List.cons_append, List.cons_append, take_cons hstart,
        take_append htake]
      rfl
  | null | int | float | arr | obj => exact hv.elim

/-- A name that is new comes at the end. -/
theorem insert_of_not_mem (h : key ∉ members.map Prod.fst) (v : Json) :
    Members.insert key v members = members ++ [(key, v)] := by
  induction members with
  | nil => rfl
  | cons m members ih =>
      rw [List.map_cons, List.mem_cons, not_or] at h
      have hne : ¬ m.1 = key := fun heq => h.1 heq.symm
      rw [Members.insert] at ih ⊢
      rw [Members.insertBy, List.cons_append, ← ih h.2]
      simp [hne]

/-- A member, up to the character that follows it. -/
theorem take_member {m : Text × Json} (hs : m.1.IsUnpaired) (hv : m.2.IsFlat)
    (hnew : m.1 ∉ members.map Prod.fst) {e : Expect} (he : e = .key ∨ e = .firstKey) (last : Text)
    (stack : List Frame) {c : CodePoint} (hc : isLetter c = false) (t : Text) :
    (⟨n, .object members last :: stack, e, .gap⟩ : Reader).take
        (renderString m.1 ++ CodePoint.ofChar ':' :: (m.2.render ++ c :: t)) =
      (⟨n, .object (members ++ [(m.1, m.2.readBack)]) m.1 :: stack, .separator, .gap⟩ : Reader).take
        (c :: t) := by
  have hcolon : (⟨n, .object members m.1 :: stack, .colon, .gap⟩ : Reader).step ':' =
      .ok ⟨n, .object members m.1 :: stack, .value, .gap⟩ := rfl
  rw [take_name hs he, take_cons hcolon, take_value hv members m.1 stack hc, insert_of_not_mem hnew]

/-- The members of an object, up to the brace that closes it. -/
theorem take_members {more : List (Text × Json)} (hne : more ≠ [])
    (hflat : ∀ m ∈ more, m.1.IsUnpaired ∧ m.2.IsFlat)
    (hnew : ((members ++ more).map Prod.fst).Nodup) {e : Expect} (he : e = .key ∨ e = .firstKey)
    (last : Text) (stack : List Frame) :
    ∃ last', ∀ t,
      (⟨n, .object members last :: stack, e, .gap⟩ : Reader).take
          (renderMembers more ++ CodePoint.ofChar '}' :: t) =
        (⟨n, .object (members ++ more.map (Prod.map id readBack)) last' :: stack, .separator, .gap⟩ :
          Reader).take (CodePoint.ofChar '}' :: t) := by
  induction more generalizing members last e with
  | nil => exact absurd rfl hne
  | cons m more ih =>
      obtain ⟨hs, hv⟩ := hflat m List.mem_cons_self
      have hm : m.1 ∉ members.map Prod.fst := by
        rw [List.map_append, List.nodup_append] at hnew
        exact fun hmem => hnew.2.2 _ hmem _ List.mem_cons_self rfl
      cases more with
      | nil =>
          refine ⟨m.1, ?_⟩
          intro t
          rw [renderMembers, List.append_assoc, List.cons_append,
            take_member hs hv hm he last stack rfl t]
          rfl
      | cons next more =>
          have hnames : ((members ++ [(m.1, m.2.readBack)] ++ next :: more).map Prod.fst).Nodup := by
            simpa using hnew
          obtain ⟨last', htake⟩ := ih (List.cons_ne_nil _ _)
            (fun n hn => hflat n (List.mem_cons_of_mem m hn)) hnames (.inl rfl) m.1
          refine ⟨last', ?_⟩
          intro t
          have hcomma : (⟨n, .object (members ++ [(m.1, m.2.readBack)]) m.1 :: stack, .separator, .gap⟩ :
              Reader).step ',' =
                .ok ⟨n, .object (members ++ [(m.1, m.2.readBack)]) m.1 :: stack, .key, .gap⟩ := rfl
          have hsplit : renderMembers (m :: next :: more) ++ CodePoint.ofChar '}' :: t =
              renderString m.1 ++ CodePoint.ofChar ':' :: (m.2.render ++ CodePoint.ofChar ',' ::
                (renderMembers (next :: more) ++ CodePoint.ofChar '}' :: t)) := by
            rw [renderMembers]
            simp
          rw [hsplit, take_member hs hv hm he last stack rfl, take_cons hcomma, htake t,
            List.append_assoc]
          rfl

/-! ## Objects -/

/-- A flat object is read back. -/
theorem parse_render_obj (n : Nat) (hne : members ≠ [])
    (hflat : ∀ m ∈ members, m.1.IsUnpaired ∧ m.2.IsFlat)
    (hnames : (members.map Prod.fst).Nodup) :
    parse n (render (.obj members)) = .ok (.obj (members.map (Prod.map id readBack))) := by
  obtain ⟨last, htake⟩ :=
    take_members hne hflat (hnames : (([] ++ members).map Prod.fst).Nodup) (.inr rfl) [] []
  have hopen : (start n).step '{' = .ok ⟨n, [.object [] []], .firstKey, .gap⟩ := rfl
  have hread : (start n).take (render (.obj members)) =
      .ok ⟨n, [], .nothing (.obj (members.map (Prod.map id readBack))), .gap⟩ := by
    rw [render, List.cons_append, take_cons hopen, htake []]
    rfl
  rw [take] at hread
  rw [parse, hread]
  rfl

/-! ## Bytes -/

/-- A flat object is written in printable characters of ASCII. -/
theorem isPrinted_of_mem_render_obj (hflat : ∀ m ∈ members, m.2.IsFlat) :
    ∀ d ∈ render (.obj members), IsPrinted d := by
  have hvalue {v : Json} (hv : v.IsFlat) : ∀ d ∈ render v, IsPrinted d := by
    cases v with
    | bool b => cases b <;> decide
    | str t => exact isPrinted_of_mem_renderString t
    | null | int | float | arr | obj => exact hv.elim
  have hmembers : ∀ d ∈ renderMembers members, IsPrinted d := by
    induction members with
    | nil => simp [renderMembers]
    | cons m members ih =>
        have hm := hvalue (hflat m List.mem_cons_self)
        have hrest := ih fun n hn => hflat n (List.mem_cons_of_mem m hn)
        have hname := isPrinted_of_mem_renderString m.1
        intro d hd
        cases members with
        | nil =>
            simp only [renderMembers, List.mem_append, List.mem_cons] at hd
            rcases hd with hd | rfl | hd
            · exact hname d hd
            · decide
            · exact hm d hd
        | cons next members =>
            simp only [renderMembers, List.mem_append, List.mem_cons] at hd
            rcases hd with (hd | rfl | hd) | rfl | hd
            · exact hname d hd
            · decide
            · exact hm d hd
            · decide
            · exact hrest d hd
  intro d hd
  simp only [render, List.cons_append, List.mem_cons, List.mem_append, List.not_mem_nil,
    or_false] at hd
  rcases hd with rfl | hd | rfl
  · decide
  · exact hmembers d hd
  · decide

/-- A document that starts with a brace and a quote is taken to be in UTF-8. -/
theorem detect_brace_quote (rest : Bytes) : Encoding.detect (0x7B :: 0x22 :: rest) = .utf8 false := by
  rcases rest with _ | ⟨c, _ | ⟨d, rest⟩⟩
  · rfl
  · rfl
  · rfl

/-- The bytes of a flat object are read as its document. -/
theorem parseBytes_toBytes (hne : members ≠ []) (hflat : ∀ m ∈ members, m.2.IsFlat) :
    parseBytes n (render (.obj members)).toBytes = parse n (render (.obj members)) := by
  have hstart : ∃ rest, (render (.obj members)).toBytes = 0x7B :: 0x22 :: rest := by
    cases members with
    | nil => exact absurd rfl hne
    | cons m members => cases members <;> exact ⟨_, rfl⟩
  have hascii : ∀ d ∈ render (.obj members), d.val < 0x80 := by
    intro d hd
    have := (isPrinted_of_mem_render_obj hflat d hd).2
    omega
  have hbytes : (render (.obj members)).toBytes =
      (render (.obj members)).flatMap Utf8.encodePoint :=
    (Utf8.flatMap_encodePoint_eq_map hascii).symm
  have hdecode := Utf8.decodeWithSurrogates?_encode (Utf8.hasSurrogate_of_ascii hascii)
  have hdetect : Encoding.detect (render (.obj members)).toBytes = .utf8 false := by
    obtain ⟨rest, hrest⟩ := hstart
    rw [hrest, detect_brace_quote]
  rw [parseBytes, hdetect, Encoding.decode?, if_neg Bool.false_ne_true, hbytes, hdecode]

end LogRelay.Json
