import Reticulum.Lxmf.Message
import Reticulum.Nomad.Envelope

/-!
# File names of attachments

`lxmf_attachment_safe_name` of `src/lxmf/fields.c` makes a file name of the name that an attachment
came with. It keeps what stands behind the last separator, leaves out the dots that this part begins
with, and then leaves out the control bytes. Every byte it looks for is an ASCII byte, and an ASCII
byte is a character of its own, so valid UTF-8 stays valid (`ValidUtf8.behind`, `ValidUtf8.filter`).
The dots go before the control bytes do. A dot behind a control byte therefore comes to stand at the
beginning (`parent_name_made`), and only such a dot does (`attachment_name_safe_iff`).
-/

namespace Reticulum.Lxmf

open List

/-! ## The name that is made -/

/-- `LXMF_STANDARD_MAX_NAME_BYTES`. -/
def maxNameBytes : ℕ := 255

/-- `valid_utf8`, which is `utf8` of `src/nomad/rrc.c` under another name. -/
def validUtf8 (text : List UInt8) : Bool := Rrc.utf8 text

/-- The slash, the backslash and the colon. -/
def separator (b : UInt8) : Bool := b = 0x2f ∨ b = 0x5c ∨ b = 0x3a

/-- The bytes that are not copied. -/
def control (b : UInt8) : Bool := b < 0x20 ∨ b = 0x7f

/-- The loop over the separators: what `start` points to, when the second argument is what `i`
points to. -/
def lastPart (start : List UInt8) : List UInt8 → List UInt8
  | [] => start
  | b :: rest => lastPart (if separator b then rest else start) rest

/-- What `start` points to when the copying begins: the last part without its leading dots. -/
def kept (name : List UInt8) : List UInt8 := (lastPart name name).dropWhile (· = 0x2e)

/-- The loop that copies, with the bytes that were written so far. -/
def copyName (capacity : ℕ) (written : List UInt8) : List UInt8 → Except Status (List UInt8)
  | [] => .ok written
  | b :: rest =>
    if control b then copyName capacity written rest
    else if capacity ≤ written.length then .error .bounds
    else copyName capacity (written ++ [b]) rest

/-- `fallback`: the bytes of `attachment`. -/
def fallback : List UInt8 := [0x61, 0x74, 0x74, 0x61, 0x63, 0x68, 0x6d, 0x65, 0x6e, 0x74]

/-- `lxmf_attachment_safe_name`. -/
def attachmentSafeName (name : List UInt8) (capacity : ℕ) : Except Status (List UInt8) :=
  if maxNameBytes < name.length ∨ ¬ validUtf8 name then .error .argument
  else
    match copyName capacity [] (kept name) with
    | .error status => .error status
    | .ok [] => if capacity < fallback.length then .error .bounds else .ok fallback
    | .ok written => .ok written

/-! ## Valid UTF-8 -/

/-- The bytes are those of characters, one behind the other. -/
def ValidUtf8 (text : List UInt8) : Prop :=
  ∃ cs : List Char, text = cs.flatMap String.utf8EncodeChar

/-- An ASCII byte is a character of its own. -/
theorem utf8EncodeChar_of_mem {c : Char} {b : UInt8} (h : b ∈ String.utf8EncodeChar c)
    (hb : b < 0x80) : String.utf8EncodeChar c = [b] := by
  have hlow : b.toNat < 128 := hb
  rw [String.utf8EncodeChar.eq_def] at h ⊢
  generalize c.val.toNat = v at h ⊢
  by_cases hv : v ≤ 127
  · rw [if_pos hv] at h ⊢
    rw [mem_singleton.mp h]
  · -- Each byte of a longer character has its highest bit set.
    rw [if_neg hv] at h
    split_ifs at h
    all_goals
      simp only [mem_cons, not_mem_nil, or_false, ← UInt8.toNat_inj, UInt8.toNat_ofNat'] at h
      omega

/-- What stands behind an ASCII byte is valid when the whole is. -/
theorem ValidUtf8.behind {front rest : List UInt8} {b : UInt8} (h : ValidUtf8 (front ++ b :: rest))
    (hb : b < 0x80) : ValidUtf8 rest := by
  obtain ⟨cs, h⟩ := h
  induction cs generalizing front with
  | nil => simp at h
  | cons c cs ih =>
    rw [flatMap_cons] at h
    obtain ⟨tail, hchar, htail⟩ | ⟨front', -, hrest⟩ := append_eq_append_iff.mp h
    · -- The byte is in the first character, which it then is, or begins the next one.
      cases tail with
      | nil => exact @ih [] htail
      | cons b' tail =>
        obtain ⟨rfl, rfl⟩ := List.cons.inj htail
        have hself := utf8EncodeChar_of_mem (c := c) (b := b) (by simp [hchar]) hb
        obtain ⟨-, hnil⟩ : front = [] ∧ tail = [] := by
          simpa [append_eq_singleton_iff] using hchar.symm.trans hself
        subst hnil
        exact ⟨cs, rfl⟩
    · exact ih hrest.symm

/-- Leaving out ASCII bytes keeps valid UTF-8 valid. -/
theorem ValidUtf8.filter {text : List UInt8} {keep : UInt8 → Bool} (h : ValidUtf8 text)
    (hkeep : ∀ b, ¬ keep b → b < 0x80) : ValidUtf8 (text.filter keep) := by
  obtain ⟨cs, rfl⟩ := h
  induction cs with
  | nil => exact ⟨[], rfl⟩
  | cons c cs ih =>
    obtain ⟨kept, hkept⟩ := ih
    rw [flatMap_cons, filter_append, hkept]
    by_cases hall : ∀ b ∈ String.utf8EncodeChar c, keep b
    · exact ⟨c :: kept, by rw [filter_eq_self.mpr hall, flatMap_cons]⟩
    · push Not at hall
      obtain ⟨b, hmem, hdrop⟩ := hall
      exact ⟨kept, by simp [utf8EncodeChar_of_mem hmem (hkeep b hdrop), hdrop]⟩

/-- Leaving out the dots at the beginning keeps valid UTF-8 valid. -/
theorem ValidUtf8.dropDots {text : List UInt8} (h : ValidUtf8 text) :
    ValidUtf8 (text.dropWhile (· = 0x2e)) := by
  induction text with
  | nil => exact h
  | cons b rest ih =>
    by_cases hb : b = 0x2e
    · subst hb
      simpa using ih (@ValidUtf8.behind [] _ _ h (by decide))
    · simpa [hb] using h

/-! ## What is kept of a name -/

section

variable {name start front bytes : List UInt8}

/-- The part behind the last separator is valid and has no separator. `front` is what was read
since `start`. -/
theorem lastPart_spec (hstart : start = front ++ bytes) (hfront : ∀ b ∈ front, separator b = false)
    (h : ValidUtf8 start) :
    ValidUtf8 (lastPart start bytes) ∧ ∀ b ∈ lastPart start bytes, separator b = false := by
  induction bytes generalizing start front with
  | nil => exact ⟨h, by simpa [lastPart, hstart] using hfront⟩
  | cons b rest ih =>
    rw [lastPart]
    split_ifs with hb
    · have hascii : ∀ b, separator b → b < 0x80 := by decide
      exact @ih rest [] rfl nofun ((hstart ▸ h).behind (hascii b hb))
    · refine @ih start (front ++ [b]) (by simp [hstart]) ?_ h
      simpa [or_imp, forall_and] using ⟨hfront, Bool.eq_false_of_not_eq_true hb⟩

/-- What is copied is what is not a control byte. -/
theorem copyName_ok {capacity : ℕ} {written output : List UInt8}
    (h : copyName capacity written bytes = .ok output) :
    output = written ++ bytes.filter (!control ·) := by
  induction bytes generalizing written with
  | nil => simpa [copyName] using h.symm
  | cons b rest ih =>
    rw [copyName] at h
    split_ifs at h with hb hroom
    · simpa [hb] using ih h
    · simpa [hb] using ih h

/-- Behind the dots that the last part of a name begins with come control bytes, and then a dot. -/
def DotBehindControls (name : List UInt8) : Prop :=
  ∃ controls rest, kept name = controls ++ 0x2e :: rest ∧ ∀ b ∈ controls, control b

/-- Such a dot is the first byte that is copied. -/
theorem head?_copied_iff :
    ((kept name).filter (!control ·)).head? = some 0x2e ↔ DotBehindControls name := by
  have hdot : control 0x2e = false := by decide
  simp [List.find?_eq_some_iff_append, DotBehindControls, hdot]

/-- A file name that names no other directory and no hidden file. -/
structure SafeName (output : List UInt8) : Prop where
  nonempty : output ≠ []
  valid : ValidUtf8 output
  plain : ∀ b ∈ output, ¬ separator b ∧ ¬ control b
  visible : output.head? ≠ some 0x2e

/-- The fallback is a safe name. -/
theorem fallback_safe : SafeName fallback where
  nonempty := nofun
  valid := ⟨['a', 't', 't', 'a', 'c', 'h', 'm', 'e', 'n', 't'], rfl⟩
  plain := by decide
  visible := by decide

/-- The name made of a valid one is safe unless a dot stands behind control bytes that nothing but
dots comes before. -/
theorem attachment_name_safe_iff {output : List UInt8} {capacity : ℕ} (hname : ValidUtf8 name)
    (h : attachmentSafeName name capacity = .ok output) :
    SafeName output ↔ ¬ DotBehindControls name := by
  obtain ⟨hlast, hparts⟩ := lastPart_spec (nil_append name).symm nofun hname
  have hvalid : ValidUtf8 (kept name) := hlast.dropDots
  have hplain : ∀ b ∈ kept name, separator b = false :=
    fun b hb => hparts b ((dropWhile_sublist _).mem hb)
  rw [← head?_copied_iff]
  rw [attachmentSafeName, ite_eq_iff] at h
  obtain ⟨-, h⟩ | ⟨-, h⟩ := h
  · cases h
  cases hcopy : copyName capacity [] (kept name) with
  | error status => simp [hcopy] at h
  | ok written =>
    have hwritten := copyName_ok hcopy
    rw [nil_append] at hwritten
    rw [← hwritten]
    rw [hcopy] at h
    cases written with
    | nil =>
      -- Nothing is left, and the fallback is written.
      obtain ⟨-, h⟩ | ⟨-, h⟩ := ite_eq_iff.mp h
      · cases h
      cases h
      exact iff_of_true fallback_safe (by simp)
    | cons b written =>
      cases h
      refine ⟨SafeName.visible, fun hvisible => ⟨cons_ne_nil _ _, ?_, ?_, hvisible⟩⟩
      · rw [hwritten]
        exact hvalid.filter (by decide)
      · intro b' hb
        rw [hwritten, mem_filter] at hb
        simpa [hplain b' hb.1] using hb.2

/-- Of `a/.b`, a control byte and `c` the name `bc` is made. -/
theorem attachment_name_safe_iff_nested :
    attachmentSafeName [0x61, 0x2f, 0x2e, 0x62, 1, 0x63] 2 = .ok [0x62, 0x63] ∧
      SafeName [0x62, 0x63] := by
  have hmade : attachmentSafeName [0x61, 0x2f, 0x2e, 0x62, 1, 0x63] 2 = .ok [0x62, 0x63] := by
    decide
  have hname : ValidUtf8 _ := ⟨['a', '/', '.', 'b', Char.ofNat 1, 'c'], rfl⟩
  refine ⟨hmade, (attachment_name_safe_iff hname hmade).mpr ?_⟩
  rw [← head?_copied_iff]
  decide

/-- Of a control byte and two dots the name of the parent directory is made. -/
theorem parent_name_made : ValidUtf8 [1, 0x2e, 0x2e] ∧
    attachmentSafeName [1, 0x2e, 0x2e] 255 = .ok [0x2e, 0x2e] ∧ ¬ SafeName [0x2e, 0x2e] :=
  ⟨⟨[Char.ofNat 1, '.', '.'], rfl⟩, by decide, fun h => h.visible rfl⟩

end

end Reticulum.Lxmf
