import Reticulum.Lxmf.Message

/-!
# The ticket in a fields map

`lxmf_fields_merge_ticket` of `src/lxmf/fields.c` puts a ticket into a fields map, in place of one
that is there, and `lxmf_fields_parse_ticket` of `src/lxmf/lxmf.c` reads it back. Each of the two
files has a reader of its own, with bounds of its own. What both read of the same bytes ends at the
same place (`skip_agrees`), so the entries that the one keeps are entries that the other passes over
(`mergeEntries_parse`), and the ticket that is put behind them is the one that is read
(`fieldsParseTicket_of_merge`).
-/

namespace Reticulum.Lxmf

open List Option Prod UInt8
open Bytes (beDecode beEncode)
open Resource (mpTake mpPutUint)

/-! ## The reader of the fields -/

namespace Fields

/-- `FIELDS_MAX_ITEMS`. -/
def maxItems : ℕ := 256

/-- `reader_t`: the bytes that were not read yet and the objects that were. -/
structure Reader where
  bytes : List UInt8
  items : ℕ

/-- What follows the tag of an object, which may be an extension here and not in `objectExtent`. -/
def extent (c : UInt8) (bytes : List UInt8) : Option (ℕ × ℕ × List UInt8) :=
  if c = 0xc7 then (readLength 1 bytes).map fun (n, bytes) => (n + 1, 0, bytes)
  else if c = 0xc8 then (readLength 2 bytes).map fun (n, bytes) => (n + 1, 0, bytes)
  else if c = 0xc9 then (readLength 4 bytes).map fun (n, bytes) => (n + 1, 0, bytes)
  else if c = 0xdf then
    (readLength 4 bytes).bind fun (count, bytes) =>
      if count > maxItems / 2 then none else some (0, 2 * count, bytes)
  else objectExtent c bytes

/-- Passing over the objects inside another one. -/
def skipChildren (skip : Reader → Option Reader) : ℕ → Reader → Option Reader
  | 0, r => some r
  | children + 1, r => (skip r).bind (skipChildren skip children)

/-- `skip`, with the number of depths that it may still go to: `FIELDS_MAX_DEPTH` is
`LXMF_MAX_NESTING`. -/
def skip : ℕ → Reader → Option Reader
  | 0, _ => none
  | _ + 1, ⟨[], _⟩ => none
  | depths + 1, ⟨c :: bytes, items⟩ =>
    if items ≥ maxItems then none
    else
      match extent c bytes with
      | none => none
      | some (n, children, bytes) =>
        if n > bytes.length then none
        else if children > maxItems then none
        else skipChildren (skip depths) children ⟨bytes.drop n, items + 1⟩

/-- `container`, for a map. -/
def container (r : Reader) : Option (ℕ × Reader) :=
  if r.items ≥ maxItems then none
  else
    (getContainerCount 0xf0 0x80 0xde 0xdf r.bytes).bind fun (count, bytes) =>
      if count > maxItems then none else some (count, ⟨bytes, r.items + 1⟩)

/-- `unsigned_value`, without what is left. -/
def unsignedValue (r : Reader) : Option ℕ :=
  if r.items ≥ maxItems then none else (getUnsigned r.bytes).map (·.1)

/-! ## The writer -/

/-- `put`, behind what was written into a buffer of the capacity. -/
def put (capacity : ℕ) (written bytes : List UInt8) : Option (List UInt8) :=
  if written.length + bytes.length > capacity then none else some (written ++ bytes)

/-- `put_head`. -/
def putHead (major value : ℕ) : Option (List UInt8) :=
  if major = 0 then some (mpPutUint value)
  else if major = 2 ∨ major = 3 then
    if major = 3 ∧ value ≤ 31 then some [0xa0 ||| ofNat value]
    else if value ≤ 0xff then some ((if major = 2 then 0xc4 else 0xd9) :: beEncode 1 value)
    else if value ≤ 0xffff then some ((if major = 2 then 0xc5 else 0xda) :: beEncode 2 value)
    else if value ≤ 0xffffffff then some ((if major = 2 then 0xc6 else 0xdb) :: beEncode 4 value)
    else none
  else if major = 4 ∨ major = 5 then
    if value ≤ 15 then some [(if major = 4 then 0x90 else 0x80) ||| ofNat value]
    else if value ≤ 0xffff then some ((if major = 4 then 0xdc else 0xde) :: beEncode 2 value)
    else if value ≤ 0xffffffff then some ((if major = 4 then 0xdd else 0xdf) :: beEncode 4 value)
    else none
  else none

/-- A head behind what was written. -/
def writeHead (capacity major value : ℕ) (written : List UInt8) : Option (List UInt8) :=
  (putHead major value).bind (put capacity written)

/-- `put_slice`. -/
def putSlice (capacity major : ℕ) (value written : List UInt8) : Option (List UInt8) :=
  (writeHead capacity major value.length written).bind fun written => put capacity written value

end Fields

open Fields

/-! ## Merging a ticket -/

/-- The loop of `lxmf_fields_merge_ticket` over the entries that are left, with the objects that
were kept and what was written so far. -/
def mergeEntries (capacity : ℕ) :
    ℕ → Fields.Reader → ℕ → List UInt8 → Except Status (ℕ × List UInt8)
  | 0, _, kept_items, written => .ok (kept_items, written)
  | count + 1, r, kept_items, written =>
    match (skip nesting r).bind (skip nesting) with
    | none => .error .format
    | some rest =>
      if unsignedValue r = some fieldTicket then mergeEntries capacity count rest kept_items written
      else
        match put capacity written (r.bytes.take (r.bytes.length - rest.bytes.length)) with
        | none => .error .bounds
        | some written =>
          mergeEntries capacity count rest (kept_items + (rest.items - r.items)) written

/-- The entry of the ticket. -/
def putTicket (capacity : ℕ) (ticket : TicketEntry) (written : List UInt8) : Option (List UInt8) := do
  let written ← writeHead capacity 0 fieldTicket written
  let written ← writeHead capacity 4 2 written
  let written ← writeHead capacity 0 ticket.expires_at written
  putSlice capacity 2 ticket.ticket.bytes written

/-- `lxmf_fields_merge_ticket`. -/
def fieldsMergeTicket (existing_fields : List UInt8) (ticket : Option TicketEntry)
    (output_capacity : ℕ) : Except Status (List UInt8) :=
  if existing_fields.length > maxMessageSize then .error .argument
  else
    let capacity := min output_capacity maxMessageSize
    let existing_fields := if existing_fields = [] then [0x80] else existing_fields
    match fieldsParseTicket existing_fields with
    | none => .error .format
    | some previous =>
      match container ⟨existing_fields, 0⟩ with
      | none => .error .format
      | some (count, r) =>
        let new_count :=
          count - (if previous.isSome then 1 else 0) + (if ticket.isSome then 1 else 0)
        if new_count > maxItems then .error .bounds
        else
          match writeHead capacity 5 new_count [] with
          | none => .error .bounds
          | some written =>
            match mergeEntries capacity count r 1 written with
            | .error status => .error status
            | .ok (kept_items, written) =>
              if kept_items > maxItems - (if ticket.isSome then 4 else 0) then .error .bounds
              else
                match ticket with
                | none => .ok written
                | some ticket =>
                  match putTicket capacity ticket written with
                  | none => .error .bounds
                  | some written => .ok written

/-! ## An object is read from its own bytes -/

variable {width n : ℕ} {bytes rest : List UInt8} {depths : ℕ} {c : UInt8} {r : Fields.Reader}
  {ticket : TicketEntry} {count capacity : ℕ} {written written' : List UInt8}

/-- A length is read from its own bytes. -/
theorem readLength_split (h : readLength width bytes = some (n, rest)) :
    ∃ x, bytes = x ++ rest ∧ ∀ more, readLength width (x ++ more) = some (n, more) := by
  obtain ⟨⟨digits, rest'⟩, htake, heq⟩ := map_eq_some_iff.mp h
  obtain ⟨rfl, rfl⟩ := mk.inj heq
  unfold mpTake at htake
  split_ifs at htake with hshort
  cases htake
  refine ⟨bytes.take width, (take_append_drop width bytes).symm, fun more => ?_⟩
  rw [readLength, Resource.mpTake_append (length_take_of_le (not_lt.mp hshort))]
  rfl

/-- What follows a tag is read from its own bytes. -/
def ReadsOwn (read : List UInt8 → Option (ℕ × ℕ × List UInt8)) : Prop :=
  ∀ ⦃bytes n items rest⦄, read bytes = some (n, items, rest) →
    ∃ x, bytes = x ++ rest ∧ ∀ more, read (x ++ more) = some (n, items, more)

namespace ReadsOwn

theorem fixed (n items : ℕ) : ReadsOwn fun bytes => some (n, items, bytes) := by
  intro bytes n' items' rest h
  obtain ⟨rfl, rfl, rfl⟩ : n = n' ∧ items = items' ∧ bytes = rest := by simpa using h
  exact ⟨[], rfl, fun more => rfl⟩

theorem none : ReadsOwn fun _ => Option.none := by
  intro bytes n items rest h
  cases h

theorem counted (width : ℕ) (f : ℕ → Option (ℕ × ℕ)) :
    ReadsOwn fun bytes => (readLength width bytes).bind fun (v, bytes) =>
      (f v).map fun extent => (extent.1, extent.2, bytes) := by
  intro bytes n items rest h
  obtain ⟨⟨v, bytes'⟩, hread, hmap⟩ := bind_eq_some_iff.mp h
  obtain ⟨extent, hf, heq⟩ := map_eq_some_iff.mp hmap
  obtain ⟨rfl, rfl, rfl⟩ : extent.1 = n ∧ extent.2 = items ∧ bytes' = rest := by simpa using heq
  obtain ⟨x, hx, hmore⟩ := readLength_split hread
  refine ⟨x, hx, fun more => ?_⟩
  simp [hmore, hf]

theorem congr {read read' : List UInt8 → Option (ℕ × ℕ × List UInt8)} (h : ReadsOwn read)
    (heq : ∀ bytes, read' bytes = read bytes) : ReadsOwn read' := by
  rwa [funext heq]

theorem ite {p : Prop} [Decidable p] {yes no : List UInt8 → Option (ℕ × ℕ × List UInt8)}
    (hyes : ReadsOwn yes) (hno : ReadsOwn no) :
    ReadsOwn fun bytes => if p then yes bytes else no bytes := by
  by_cases hp : p
  · simpa only [if_pos hp] using hyes
  · simpa only [if_neg hp] using hno

/-- A number of bytes. -/
theorem sized (width : ℕ) :
    ReadsOwn fun bytes => (readLength width bytes).map fun (n, bytes) => (n, 0, bytes) :=
  (counted width fun n => some (n, 0)).congr fun bytes => by cases readLength width bytes <;> rfl

/-- A number of objects. -/
theorem items (width : ℕ) (f : ℕ → ℕ) :
    ReadsOwn fun bytes => (readLength width bytes).map fun (n, bytes) => (0, f n, bytes) :=
  (counted width fun n => some (0, f n)).congr fun bytes => by
    cases readLength width bytes <;> rfl

/-- A number of objects that has a bound. -/
theorem bounded (width bound : ℕ) :
    ReadsOwn fun bytes => (readLength width bytes).bind fun (n, bytes) =>
      if n > bound then Option.none else some (0, 2 * n, bytes) :=
  (counted width fun n => if n > bound then .none else some (0, 2 * n)).congr fun bytes => by
    cases readLength width bytes with
    | none => rfl
    | some result =>
      dsimp only [bind_some]
      split_ifs <;> rfl

end ReadsOwn

theorem readsOwn_objectExtent (c : UInt8) : ReadsOwn (objectExtent c) := by
  iterate 4 refine .ite (.fixed _ _) ?_
  refine .ite (.sized 1) <| .ite (.sized 2) <| .ite (.sized 4) ?_
  iterate 8 refine .ite (.fixed _ _) ?_
  exact .ite (.items 2 id) <| .ite (.items 4 id) <| .ite (.items 2 (2 * ·)) <|
    .ite (.bounded 4 _) .none

variable {items : ℕ}

/-- Objects are read from their own bytes when each of them is. -/
theorem skipItems_split {skip : List UInt8 → Option (List UInt8)}
    (hskip : ∀ {bytes rest}, skip bytes = some rest →
      ∃ x, bytes = x ++ rest ∧ ∀ more, skip (x ++ more) = some more)
    (h : skipItems skip items bytes = some rest) :
    ∃ x, bytes = x ++ rest ∧ ∀ more, skipItems skip items (x ++ more) = some more := by
  induction items generalizing bytes with
  | zero =>
    cases h
    exact ⟨[], rfl, fun more => rfl⟩
  | succ items ih =>
    rw [skipItems, bind_eq_some_iff] at h
    obtain ⟨bytes', hfirst, hrest⟩ := h
    obtain ⟨x, rfl, hx⟩ := hskip hfirst
    obtain ⟨y, rfl, hy⟩ := ih hrest
    refine ⟨x ++ y, (append_assoc x y rest).symm, fun more => ?_⟩
    rw [skipItems, append_assoc, hx, bind_some, hy]

/-- An object is passed over when there are as many bytes and objects behind its tag as it says. -/
theorem skipObj_eq_some_iff : skipObj (depths + 1) (c :: bytes) = some rest ↔
    ∃ n items tail, objectExtent c bytes = some (n, items, tail) ∧ n ≤ tail.length ∧
      skipItems (skipObj depths) items (tail.drop n) = some rest := by
  rw [skipObj]
  rcases objectExtent c bytes with _ | ⟨n, items, tail⟩
  · simp
  · simp

/-- An object is read from its own bytes, whatever follows them. -/
theorem skipObj_split (h : skipObj depths bytes = some rest) :
    ∃ x, bytes = x ++ rest ∧ ∀ more, skipObj depths (x ++ more) = some more := by
  induction depths generalizing bytes rest with
  | zero => cases h
  | succ depths ih =>
    rcases bytes with _ | ⟨c, bytes⟩
    · cases h
    rw [skipObj_eq_some_iff] at h
    obtain ⟨n, items, tail, hextent, hroom, h⟩ := h
    obtain ⟨x, rfl, hx⟩ := readsOwn_objectExtent c hextent
    obtain ⟨y, hdrop, hy⟩ := skipItems_split ih h
    have htail : tail = tail.take n ++ (y ++ rest) := by
      rw [← hdrop, take_append_drop]
    have hlength : (tail.take n).length = n := length_take_of_le hroom
    refine ⟨c :: (x ++ (tail.take n ++ y)), ?_, fun more => ?_⟩
    · rw [cons_append, append_assoc, append_assoc, ← htail]
    · rw [cons_append, append_assoc, append_assoc, skipObj_eq_some_iff]
      refine ⟨n, items, _, hx _, ?_, by rw [drop_left' hlength, hy]⟩
      rw [length_append, hlength]
      omega

/-- The tag of an integer says how many bytes follow. -/
theorem objectExtent_of_uintWidth (h : Resource.uintWidth c = some width) (bytes : List UInt8) :
    objectExtent c bytes = some (width, 0, bytes) := by
  unfold Resource.uintWidth at h
  split_ifs at h with h₁ h₂ h₃ h₄
  all_goals
    subst c
    cases h
    rfl

variable {x : List UInt8}

/-- A key is read from its own bytes. -/
theorem getUnsigned_split
    (hx : ∀ more, skipObj (depths + 1) (x ++ more) = some more) (more more' : List UInt8) :
    (getUnsigned (x ++ more)).map (·.1) = (getUnsigned (x ++ more')).map (·.1) := by
  have hnil := hx []
  rw [append_nil] at hnil
  rcases x with _ | ⟨c, y⟩
  · cases hnil
  unfold getUnsigned Resource.mpUint
  simp only [cons_append, Resource.mpByte_cons, bind_eq_bind, bind_some]
  split
  · rfl
  · cases hwidth : Resource.uintWidth c with
    | none => rfl
    | some width =>
      rw [skipObj, objectExtent_of_uintWidth hwidth] at hnil
      dsimp only at hnil
      split_ifs at hnil with hroom
      have hdrop : y.drop width = [] := some.inj hnil
      have hlength := congrArg List.length hdrop
      rw [length_drop, length_nil] at hlength
      have hy : y.length = width := by omega
      simp [Resource.mpTake_append hy]

/-! ## The two readers -/

/-- Where both readers know an object they agree about what follows its tag. -/
theorem extent_agrees {x y : ℕ × ℕ × List UInt8} (h : extent c bytes = some x)
    (h' : objectExtent c bytes = some y) : x = y := by
  unfold extent at h
  split_ifs at h with h₁ h₂ h₃ h₄
  · subst h₁
    cases (show (none : Option (ℕ × ℕ × List UInt8)) = some y from h')
  · subst h₂
    cases (show (none : Option (ℕ × ℕ × List UInt8)) = some y from h')
  · subst h₃
    cases (show (none : Option (ℕ × ℕ × List UInt8)) = some y from h')
  · subst h₄
    have h' : ((readLength 4 bytes).bind fun (pairs, bytes) =>
      if pairs > (2 ^ 32 - 1) / 2 then none else some (0, 2 * pairs, bytes)) = some y := h'
    cases hread : readLength 4 bytes with
    | none =>
      rw [hread] at h
      cases h
    | some result =>
      rw [hread] at h h'
      dsimp only [bind_some] at h h'
      split_ifs at h h'
      exact some.inj (h.symm.trans h')
  · exact some.inj (h.symm.trans h')

variable {r' : Fields.Reader}

theorem skipChildren_agrees {skip : Fields.Reader → Option Fields.Reader}
    {skip' : List UInt8 → Option (List UInt8)}
    (hskip : ∀ {r r' rest}, skip r = some r' → skip' r.bytes = some rest → r'.bytes = rest)
    (h : skipChildren skip items r = some r') (h' : skipItems skip' items r.bytes = some rest) :
    r'.bytes = rest := by
  induction items generalizing r with
  | zero =>
    cases h
    exact some.inj h'
  | succ items ih =>
    obtain ⟨r₁, hfirst, hrest⟩ := bind_eq_some_iff.mp h
    obtain ⟨bytes₁, hfirst', hrest'⟩ := bind_eq_some_iff.mp h'
    obtain rfl := hskip hfirst hfirst'
    exact ih hrest hrest'

/-- What both readers pass over ends at the same place. -/
theorem skip_agrees (h : skip depths r = some r')
    (h' : skipObj depths r.bytes = some rest) : r'.bytes = rest := by
  induction depths generalizing r r' rest with
  | zero => cases h
  | succ depths ih =>
    obtain ⟨bytes, items⟩ := r
    rcases bytes with _ | ⟨c, bytes⟩
    · cases h
    obtain ⟨n, items', tail, hextent', -, h'⟩ := skipObj_eq_some_iff.mp h'
    rw [skip] at h
    split_ifs at h
    split at h
    · cases h
    rename_i hextent
    obtain ⟨rfl, rfl, rfl⟩ := by simpa using extent_agrees hextent hextent'
    split_ifs at h
    exact skipChildren_agrees ih h h'

/-- A reader that passes over an object has not read too many. -/
theorem items_lt_of_skip (h : skip depths r = some r') : r.items < maxItems := by
  obtain ⟨bytes, items⟩ := r
  rcases depths with _ | depths
  · cases h
  rcases bytes with _ | ⟨c, bytes⟩
  · cases h
  rw [skip] at h
  split_ifs at h with hitems
  exact not_le.mp hitems

/-! ## The value of the ticket field is an object -/

/-- A value of fixed width is passed over. -/
theorem skipObj_of_mpTake {taken : List UInt8} (hextent : objectExtent c bytes = some (n, 0, bytes))
    (h : mpTake bytes n = some (taken, rest)) : skipObj (depths + 1) (c :: bytes) = some rest := by
  unfold mpTake at h
  split_ifs at h with hshort
  obtain ⟨-, rfl⟩ := mk.inj (some.inj h)
  exact skipObj_eq_some_iff.mpr ⟨n, 0, bytes, hextent, not_lt.mp hshort, rfl⟩

variable {v : ℕ}

theorem skipObj_of_getUnsigned (h : getUnsigned bytes = some (v, rest)) :
    skipObj (depths + 1) bytes = some rest := by
  rcases bytes with _ | ⟨c, bytes⟩
  · cases h
  unfold getUnsigned Resource.mpUint at h
  simp only [Resource.mpByte_cons, bind_eq_bind, bind_some] at h
  split_ifs at h with hsmall
  · obtain ⟨-, rfl⟩ := mk.inj (some.inj h)
    rw [skipObj, objectExtent, if_pos (.inl hsmall)]
    rfl
  · obtain ⟨width, hwidth, h⟩ := bind_eq_some_iff.mp h
    obtain ⟨⟨taken, rest'⟩, htake, h⟩ := bind_eq_some_iff.mp h
    obtain ⟨-, rfl⟩ := mk.inj (some.inj h)
    exact skipObj_of_mpTake (objectExtent_of_uintWidth hwidth bytes) htake

theorem skipObj_of_getExpiry (h : getExpiry bytes = some (v, rest)) :
    skipObj (depths + 1) bytes = some rest := by
  rcases bytes with _ | ⟨c, bytes⟩
  · cases h
  rw [getExpiry] at h
  split_ifs at h with hfloat hdouble
  case neg => exact skipObj_of_getUnsigned h
  all_goals
    subst c
    obtain ⟨⟨bits, rest'⟩, htake, h⟩ := bind_eq_some_iff.mp h
    obtain ⟨value, -, heq⟩ := map_eq_some_iff.mp h
    obtain ⟨-, rfl⟩ := mk.inj heq
    exact skipObj_of_mpTake rfl htake

/-- An object with nothing inside is passed over at every depth. -/
theorem skipObj_of_leaf {depths' : ℕ}
    (hleaf : ∀ n items tail, objectExtent c bytes = some (n, items, tail) → items = 0)
    (h : skipObj (depths + 1) (c :: bytes) = some rest) :
    skipObj (depths' + 1) (c :: bytes) = some rest := by
  obtain ⟨n, items, tail, hextent, hroom, h⟩ := skipObj_eq_some_iff.mp h
  obtain rfl := hleaf n items tail hextent
  exact skipObj_eq_some_iff.mpr ⟨n, 0, tail, hextent, hroom, h⟩

/-- A string has no objects inside, so it is passed over at every depth. -/
theorem skipObj_of_getBin {value : List UInt8} (h : getBin bytes = some (value, rest)) :
    skipObj (depths + 1) bytes = some rest := by
  rcases bytes with _ | ⟨c, bytes⟩
  · cases h
  unfold getBin at h
  cases hskip : skipObj nesting (c :: bytes) with
  | none =>
    rw [hskip] at h
    cases h
  | some rest' =>
    rw [hskip] at h
    dsimp only at h
    have hrest : rest' = rest ∧
        ((0xa0 ≤ c ∧ c ≤ 0xbf) ∨ (c = 0xc4 ∨ c = 0xd9) ∨ (c = 0xc5 ∨ c = 0xda) ∨
          c = 0xc6 ∨ c = 0xdb) := by
      split_ifs at h with h₁ h₂ h₃ h₄
      · exact ⟨(mk.inj (some.inj h)).2, .inl h₁⟩
      · exact ⟨(mk.inj (some.inj h)).2, .inr (.inl h₂)⟩
      · exact ⟨(mk.inj (some.inj h)).2, .inr (.inr (.inl h₃))⟩
      · exact ⟨(mk.inj (some.inj h)).2, .inr (.inr (.inr h₄))⟩
    obtain ⟨rfl, htag⟩ := hrest
    refine skipObj_of_leaf (fun n items tail hextent => ?_) hskip
    rcases htag with hshort | (rfl | rfl) | (rfl | rfl) | rfl | rfl
    · have htag : ∀ b : UInt8, 0xa0 ≤ b ∧ b ≤ 0xbf →
          ¬ (b ≤ 0x7f ∨ 0xe0 ≤ b ∨ b = 0xc0 ∨ b = 0xc2 ∨ b = 0xc3) ∧ b &&& 0xe0 = 0xa0 := by
        decide +kernel
      rw [objectExtent, if_neg (htag c hshort).1, if_pos (htag c hshort).2] at hextent
      exact (mk.inj (mk.inj (some.inj hextent)).2).1.symm
    all_goals
      obtain ⟨result, -, heq⟩ := map_eq_some_iff.mp hextent
      exact (mk.inj (mk.inj heq).2).1.symm

/-- The tag of an array and the objects inside it. -/
theorem skipObj_of_array {rest' : List UInt8}
    (hcount : getContainerCount 0xf0 0x90 0xdc 0xdd bytes = some (items, rest))
    (h : skipItems (skipObj depths) items rest = some rest') :
    skipObj (depths + 1) bytes = some rest' := by
  rcases bytes with _ | ⟨c, bytes⟩
  · cases hcount
  have hextent : objectExtent c bytes = some (0, items, rest) := by
    rw [getContainerCount] at hcount
    split_ifs at hcount with hfix h16 h32
    · obtain ⟨rfl, rfl⟩ := mk.inj (some.inj hcount)
      have htag : ∀ b : UInt8, b &&& 0xf0 = 0x90 →
          ¬ (b ≤ 0x7f ∨ 0xe0 ≤ b ∨ b = 0xc0 ∨ b = 0xc2 ∨ b = 0xc3) ∧ ¬ b &&& 0xe0 = 0xa0 := by
        decide +kernel
      rw [objectExtent, if_neg (htag c hfix).1, if_neg (htag c hfix).2, if_pos hfix]
      rfl
    · subst h16
      exact (congrArg (Option.map _) hcount).trans rfl
    · subst h32
      exact (congrArg (Option.map _) hcount).trans rfl
  exact skipObj_eq_some_iff.mpr ⟨0, items, rest, hextent, Nat.zero_le _, h⟩

theorem skipObj_of_parseTicketValue (h : parseTicketValue bytes = some (ticket, rest)) :
    skipObj nesting bytes = some rest := by
  obtain ⟨⟨values, bytes₁⟩, hcount, h⟩ := bind_eq_some_iff.mp h
  dsimp only at h
  split_ifs at h with hvalues
  obtain ⟨⟨expires_at, bytes₂⟩, hexpiry, h⟩ := bind_eq_some_iff.mp h
  obtain ⟨⟨bytes', bytes₃⟩, hbin, h⟩ := bind_eq_some_iff.mp h
  split_ifs at h with hlength
  obtain ⟨-, rfl⟩ := mk.inj (some.inj h)
  obtain rfl := not_not.mp hvalues
  refine skipObj_of_array hcount ?_
  rw [skipItems, skipObj_of_getExpiry hexpiry, bind_some, skipItems, skipObj_of_getBin hbin,
    bind_some, skipItems]

/-! ## The entries that are kept -/

variable {found : Option TicketEntry}

/-- One round of `lxmf_fields_parse_ticket`. -/
theorem parseTicketEntries_cases {ticket : Option TicketEntry}
    (h : parseTicketEntries (count + 1) found bytes = some (ticket, rest)) :
    ∃ value next, skipObj nesting bytes = some value ∧ skipObj nesting value = some next ∧
      (((getUnsigned bytes).map (·.1) ≠ some fieldTicket ∧
          parseTicketEntries count found next = some (ticket, rest)) ∨
        ((getUnsigned bytes).map (·.1) = some fieldTicket ∧ found = none ∧
          ∃ entry, parseTicketEntries count (some entry) next = some (ticket, rest))) := by
  obtain ⟨value, hvalue, h⟩ := bind_eq_some_iff.mp h
  split_ifs at h with hkey hfound
  · obtain ⟨next, hnext, h⟩ := bind_eq_some_iff.mp h
    exact ⟨value, next, hvalue, hnext, .inl ⟨hkey, h⟩⟩
  · obtain ⟨⟨entry, next⟩, hentry, h⟩ := bind_eq_some_iff.mp h
    exact ⟨value, next, hvalue, skipObj_of_parseTicketValue hentry,
      .inr ⟨not_not.mp hkey, not_isSome_iff_eq_none.mp hfound, entry, h⟩⟩

/-- A ticket that was found is the one that is read. -/
theorem parseTicketEntries_some {entry : TicketEntry} {ticket : Option TicketEntry}
    (h : parseTicketEntries count (some entry) bytes = some (ticket, rest)) :
    ticket = some entry := by
  induction count generalizing bytes with
  | zero => exact (mk.inj (some.inj h)).1.symm
  | succ count ih =>
    obtain ⟨value, next, -, -, ⟨-, hrest⟩ | ⟨-, hnone, -⟩⟩ := parseTicketEntries_cases h
    · exact ih hrest
    · cases hnone

/-- The entries that `lxmf_fields_merge_ticket` keeps are all but the ticket, and
`lxmf_fields_parse_ticket` passes over them. -/
theorem mergeEntries_parse {kept_items kept_items' : ℕ} {ticket : Option TicketEntry}
    (hmerge : mergeEntries capacity count r kept_items written = .ok (kept_items', written'))
    (hparse : parseTicketEntries count found r.bytes = some (ticket, rest)) :
    ∃ kept n, written' = written ++ kept ∧
      n + (if found = none ∧ ticket.isSome then 1 else 0) = count ∧
      ∀ count' found' more, parseTicketEntries (n + count') found' (kept ++ more) =
        parseTicketEntries count' found' more := by
  induction count generalizing r kept_items written found with
  | zero =>
    obtain ⟨-, rfl⟩ := mk.inj (Except.ok.inj hmerge)
    obtain ⟨rfl, -⟩ := mk.inj (some.inj hparse)
    refine ⟨[], 0, (append_nil written).symm, ?_, fun count' found' more => ?_⟩
    · rw [if_neg]
      rintro ⟨rfl, hsome⟩
      cases hsome
    · rw [Nat.zero_add, nil_append]
  | succ count ih =>
    obtain ⟨value, next, hvalue, hnext, hcases⟩ := parseTicketEntries_cases hparse
    rw [mergeEntries] at hmerge
    cases hskip : (skip nesting r).bind (skip nesting) with
    | none =>
      rw [hskip] at hmerge
      cases hmerge
    | some after =>
      obtain ⟨r₁, hfirst, hsecond⟩ := bind_eq_some_iff.mp hskip
      -- Both readers are at the same place behind the entry.
      have hr₁ := skip_agrees hfirst hvalue
      subst hr₁
      have hafter := skip_agrees hsecond hnext
      subst hafter
      have hkeys : unsignedValue r = (getUnsigned r.bytes).map (·.1) :=
        if_neg (not_le.mpr (items_lt_of_skip hfirst))
      rw [hskip] at hmerge
      dsimp only at hmerge
      rw [hkeys] at hmerge
      rcases hcases with ⟨hkey, hrest⟩ | ⟨hkey, rfl, entry, hrest⟩
      · obtain ⟨x, hx, hxmore⟩ := skipObj_split hvalue
        obtain ⟨y, hy, hymore⟩ := skipObj_split hnext
        have hbytes : r.bytes = (x ++ y) ++ after.bytes := by rw [hx, hy, append_assoc]
        have hslice : r.bytes.take (r.bytes.length - after.bytes.length) = x ++ y := by
          rw [hbytes, length_append, Nat.add_sub_cancel]
          exact take_left
        rw [if_neg hkey, hslice, put] at hmerge
        split_ifs at hmerge
        obtain ⟨kept, n, hkept, hn, hpass⟩ := ih hmerge hrest
        refine ⟨x ++ (y ++ kept), n + 1, ?_, by omega, fun count' found' more => ?_⟩
        · rw [hkept, append_assoc, append_assoc]
        · -- An entry of another key is passed over.
          rw [hx, getUnsigned_split hxmore _ (y ++ (kept ++ more))] at hkey
          rw [Nat.add_right_comm, append_assoc, append_assoc, parseTicketEntries, hxmore]
          dsimp only [bind_eq_bind, bind_some]
          rw [if_pos hkey, hymore]
          exact hpass ..
      · rw [if_pos hkey] at hmerge
        obtain ⟨kept, n, hkept, hn, hpass⟩ := ih hmerge hrest
        refine ⟨kept, n, hkept, ?_, hpass⟩
        rw [parseTicketEntries_some hrest]
        rw [if_neg (fun h => by cases h.1)] at hn
        rw [if_pos ⟨rfl, rfl⟩]
        omega

/-! ## What was merged is read back -/

theorem put_eq_append (h : put capacity written bytes = some written') :
    written' = written ++ bytes := by
  unfold put at h
  split_ifs at h
  exact (some.inj h).symm

variable {value : ℕ}

theorem writeHead_eq_append {major : ℕ} {head : List UInt8}
    (hhead : putHead major value = some head)
    (h : writeHead capacity major value written = some written') : written' = written ++ head := by
  rw [writeHead, hhead] at h
  exact put_eq_append h

theorem readLength_beEncode (h : n < 256 ^ width) (more : List UInt8) :
    readLength width (beEncode width n ++ more) = some (n, more) := by
  rw [readLength, Resource.mpTake_append (Bytes.length_beEncode width n), map_some]
  dsimp only
  rw [Bytes.beDecode_beEncode h]

/-- The head of a map is read back. -/
theorem getContainerCount_writeHead (hcount : count ≤ maxItems)
    (h : writeHead capacity 5 count [] = some written) (more : List UInt8) :
    getContainerCount 0xf0 0x80 0xde 0xdf (written ++ more) = some (count, more) := by
  unfold maxItems at hcount
  by_cases hsmall : count ≤ 15
  · have hhead : putHead 5 count = some [0x80 ||| ofNat count] := by simp [putHead, hsmall]
    have htag : ∀ k : Fin 16, (0x80 ||| ofNat k) &&& 0xf0 = 0x80 ∧
        ((0x80 ||| ofNat k) &&& ~~~0xf0).toNat = k := by decide
    obtain ⟨hmask, hvalue⟩ := htag ⟨count, by omega⟩
    rw [writeHead_eq_append hhead h, nil_append, singleton_append, getContainerCount,
      if_pos hmask, hvalue]
  · have hhead : putHead 5 count = some (0xde :: beEncode 2 count) := by
      simp [putHead, hsmall, show count ≤ 65535 by omega]
    rw [writeHead_eq_append hhead h, nil_append, cons_append]
    exact readLength_beEncode (show count < 256 ^ 2 by omega) more

/-- An expiry that was written as an integer is read back. -/
theorem getExpiry_mpPutUint (h : value < 2 ^ 64) (more : List UInt8) :
    getExpiry (mpPutUint value ++ more) = some (value, more) := by
  have hread := Resource.mpUint_mpPutUint h more
  have hcode : ∃ code bytes, mpPutUint value ++ more = code :: bytes ∧ code ≠ 0xca ∧
      code ≠ 0xcb := by
    unfold mpPutUint
    split_ifs with hsmall
    · have htag : ∀ k : Fin 128, ofNat k ≠ 0xca ∧ ofNat k ≠ 0xcb := by decide
      exact ⟨_, _, rfl, htag ⟨value, by omega⟩⟩
    all_goals exact ⟨_, _, rfl, by decide, by decide⟩
  obtain ⟨code, bytes, hbytes, hfloat, hdouble⟩ := hcode
  rw [hbytes] at hread ⊢
  rw [getExpiry, if_neg hfloat, if_neg hdouble]
  exact hread

/-- The bytes of a ticket are read back. -/
theorem getBin_ticket (ticket : Octets 16) :
    getBin (0xc4 :: (beEncode 1 16 ++ ticket.bytes)) = some (ticket.bytes, []) := by
  have hlength := ticket.length_eq
  have hextent : objectExtent 0xc4 (beEncode 1 16 ++ ticket.bytes) = some (16, 0, ticket.bytes) := by
    rfl
  have hskip : skipObj nesting (0xc4 :: (beEncode 1 16 ++ ticket.bytes)) = some [] := by
    rw [nesting, skipObj, hextent]
    dsimp only
    rw [if_neg (by omega), drop_of_length_le (by omega)]
    rfl
  unfold getBin
  rw [hskip]
  exact congrArg (fun bytes => some (bytes, [])) (take_of_length_le hlength.le)

/-- The entry of a ticket is read back. -/
theorem parseTicketEntries_putTicket (hexpires : ticket.expires_at < 2 ^ 64)
    (h : putTicket capacity ticket written = some written') : ∃ bytes, written' = written ++ bytes ∧
      parseTicketEntries 1 none bytes = some (some ticket, []) := by
  have hlength := ticket.ticket.length_eq
  obtain ⟨written₁, hkey, h⟩ := bind_eq_some_iff.mp h
  obtain ⟨written₂, harray, h⟩ := bind_eq_some_iff.mp h
  obtain ⟨written₃, hexpiry, h⟩ := bind_eq_some_iff.mp h
  obtain ⟨written₄, hbin, h⟩ := bind_eq_some_iff.mp h
  rw [hlength] at hbin
  have hkey := writeHead_eq_append (show putHead 0 fieldTicket = some [0x0c] from rfl) hkey
  have harray := writeHead_eq_append (show putHead 4 2 = some [0x92] from rfl) harray
  have hexpiry := writeHead_eq_append
    (show putHead 0 ticket.expires_at = some (mpPutUint ticket.expires_at) from rfl) hexpiry
  have hbin := writeHead_eq_append (show putHead 2 16 = some (0xc4 :: beEncode 1 16) from rfl) hbin
  refine ⟨0x0c :: 0x92 :: (mpPutUint ticket.expires_at ++
    (0xc4 :: (beEncode 1 16 ++ ticket.ticket.bytes))), ?_, ?_⟩
  · rw [put_eq_append h, hbin, hexpiry, harray, hkey]
    simp
  · have hvalue : parseTicketValue (0x92 :: (mpPutUint ticket.expires_at ++
        (0xc4 :: (beEncode 1 16 ++ ticket.ticket.bytes)))) = some (ticket, []) := by
      have hcount (value : List UInt8) :
          getContainerCount 0xf0 0x90 0xdc 0xdd (0x92 :: value) = some (2, value) := rfl
      rw [parseTicketValue, hcount]
      dsimp only [bind_eq_bind, bind_some]
      rw [if_neg (not_not.mpr rfl), getExpiry_mpPutUint hexpires]
      dsimp only [bind_some]
      rw [getBin_ticket]
      dsimp only [bind_some]
      rw [if_neg (not_not.mpr hlength), Octets.ofList_bytes]
    have hkey (value : List UInt8) :
        (getUnsigned (0x0c :: value)).map (·.1) = some fieldTicket := rfl
    have hskip (value : List UInt8) : skipObj nesting (0x0c :: value) = some value := rfl
    rw [parseTicketEntries, hkey, hskip]
    dsimp only [bind_eq_bind, bind_some]
    rw [if_neg (not_not.mpr rfl), if_neg (by decide), hvalue]
    rfl

/-- The entries of a map, as the reader of the fields finds them, are those that the ticket is read
from. -/
theorem parseTicketEntries_of_container {fields : List UInt8} {previous : Option TicketEntry}
    (h : fieldsParseTicket fields = some previous)
    (hcontainer : container ⟨fields, 0⟩ = some (count, r)) :
    parseTicketEntries count none r.bytes = some (previous, []) := by
  obtain ⟨⟨count', bytes⟩, hcount, heq⟩ := bind_eq_some_iff.mp hcontainer
  dsimp only at heq hcount
  split_ifs at heq
  cases heq
  unfold fieldsParseTicket at h
  split_ifs at h
  obtain ⟨⟨count'', bytes'⟩, hcount', h⟩ := bind_eq_some_iff.mp h
  obtain ⟨rfl, rfl⟩ := mk.inj (some.inj (hcount.symm.trans hcount'))
  obtain ⟨⟨ticket, rest⟩, hentries, h⟩ := bind_eq_some_iff.mp h
  dsimp only at h
  split_ifs at h with hrest
  rw [hentries, hrest, some.inj h]

variable {existing_fields output : List UInt8} {output_capacity : ℕ}

/-- The steps of a merge that succeeds. -/
theorem fieldsMergeTicket_cases
    (h : fieldsMergeTicket existing_fields (some ticket) output_capacity = .ok output) :
    ∃ fields previous count r capacity head kept_items written,
      fieldsParseTicket fields = some previous ∧ container ⟨fields, 0⟩ = some (count, r) ∧
      count - (if previous.isSome then 1 else 0) + 1 ≤ maxItems ∧
      writeHead capacity 5 (count - (if previous.isSome then 1 else 0) + 1) [] = some head ∧
      mergeEntries capacity count r 1 head = .ok (kept_items, written) ∧
      putTicket capacity ticket written = some output := by
  simp only [fieldsMergeTicket, isSome_some, if_true] at h
  generalize (if existing_fields = [] then [0x80] else existing_fields) = fields at h
  generalize min output_capacity maxMessageSize = capacity at h
  -- At each step an error is not a success.
  split at h
  · cases h
  split at h
  · cases h
  rename_i previous hprevious
  split at h
  · cases h
  rename_i count r hcontainer
  by_cases hcount : count - (if previous.isSome then 1 else 0) + 1 > maxItems
  · rw [if_pos hcount] at h
    cases h
  rw [if_neg hcount] at h
  split at h
  · cases h
  rename_i head hhead
  split at h
  · cases h
  rename_i kept_items written hmerge
  split at h
  · cases h
  split at h
  · cases h
  rename_i hput
  cases h
  exact ⟨fields, previous, count, r, capacity, head, kept_items, written, hprevious, hcontainer,
    not_lt.mp hcount, hhead, hmerge, hput⟩

/-- A ticket that was put into a fields map is the one that is read from it. -/
theorem fieldsParseTicket_of_merge (hexpires : ticket.expires_at < 2 ^ 64)
    (h : fieldsMergeTicket existing_fields (some ticket) output_capacity = .ok output) :
    fieldsParseTicket output = some (some ticket) := by
  obtain ⟨fields, previous, count, r, capacity, head, kept_items, written, hprevious, hcontainer,
    hcount, hhead, hmerge, hput⟩ := fieldsMergeTicket_cases h
  have hparse := parseTicketEntries_of_container hprevious hcontainer
  obtain ⟨kept, n, hkept, hn, hpass⟩ := mergeEntries_parse hmerge hparse
  obtain ⟨bytes, hbytes, hticket⟩ := parseTicketEntries_putTicket hexpires hput
  have hnew : count - (if previous.isSome then 1 else 0) + 1 = n + 1 := by
    rw [← hn]
    simp
  rw [hnew] at hcount hhead
  have hcontainer' := getContainerCount_writeHead hcount hhead (kept ++ bytes)
  have houtput : output = head ++ (kept ++ bytes) := by rw [hbytes, hkept, append_assoc]
  have hne : output ≠ [] := by
    intro hnil
    rw [houtput] at hnil
    rw [hnil] at hcontainer'
    cases hcontainer'
  unfold fieldsParseTicket
  rw [if_neg hne, houtput, hcontainer']
  dsimp only [bind_eq_bind, bind_some]
  rw [hpass, hticket]
  rfl

end Reticulum.Lxmf
