import WarpMotor.Privacy.Operators

/-!
What the privacy operators let through. Masking leaves the ends of a text, the
start of a mail address with its domain, or the last levels of a domain name;
two texts that agree in what is left are masked alike. Without the secret, and
for a value they cannot read, the keyed operators answer with the placeholder.
-/
namespace WarpMotor.Privacy

open Oml (Text trimText joinTexts)

theorem ends_of_length {text : Text} {keepFirst keepLast : Nat}
    (room : keepFirst + keepLast < text.length) :
    ∃ first hidden last, text = first ++ hidden ++ last ∧ first.length = keepFirst ∧
      last.length = keepLast ∧ hidden ≠ [] := by
  have inner : (text.drop keepFirst).length = text.length - keepFirst := List.length_drop
  refine ⟨text.take keepFirst, (text.drop keepFirst).take (text.length - keepFirst - keepLast),
    (text.drop keepFirst).drop (text.length - keepFirst - keepLast), ?_, ?_, ?_, ?_⟩
  · rw [List.append_assoc, List.take_append_drop, List.take_append_drop]
  · rw [List.length_take]
    omega
  · rw [List.length_drop, inner]
    omega
  · intro empty
    have gone := congrArg List.length empty
    rw [List.length_take, inner, List.length_nil] at gone
    omega

theorem mapIdx_kept {f : Nat → Char → Char} {part : Text}
    (same : ∀ i c, i < part.length → f i c = c) : part.mapIdx f = part := by
  apply List.ext_getElem
  · simp
  · intro i _ inside
    rw [List.getElem_mapIdx]
    exact same i _ inside

theorem mapIdx_hidden {f : Nat → Char → Char} {part : Text} {ch : Char}
    (same : ∀ i c, i < part.length → f i c = ch) :
    part.mapIdx f = List.replicate part.length ch := by
  apply List.ext_getElem
  · simp
  · intro i _ inside
    rw [List.length_replicate] at inside
    rw [List.getElem_mapIdx, List.getElem_replicate]
    exact same i _ inside

theorem maskKeep_parts (first hidden last : Text) (cut : hidden ≠ []) (ch : Char)
    (placeholder : Text) :
    maskKeep (first ++ hidden ++ last) first.length last.length ch placeholder =
      first ++ List.replicate hidden.length ch ++ last := by
  have some_hidden := List.length_pos_iff.mpr cut
  have filled : (first ++ hidden ++ last).isEmpty = false := by simp [cut]
  have total : (first ++ hidden ++ last).length = first.length + hidden.length + last.length := by
    simp [Nat.add_assoc]
  have room : ¬ first.length + last.length ≥ first.length + hidden.length + last.length := by
    omega
  simp only [maskKeep, filled, total, room, Bool.false_eq_true, if_false, List.mapIdx_append]
  rw [mapIdx_kept, mapIdx_hidden, mapIdx_kept]
  · intro i c _
    simp
  · intro i c inside
    have not_first : ¬ i + first.length < first.length := by omega
    have not_last : ¬ first.length + hidden.length ≤ i + first.length := by omega
    simp [not_first, not_last]
  · intro i c inside
    simp [inside]

theorem rsplitOnce_none {sep : Char} {text : Text} (absent : rsplitOnce sep text = none) :
    sep ∉ text := by
  induction text with
  | nil => simp
  | cons c rest ih =>
    rw [rsplitOnce] at absent
    split at absent
    · cases absent
    · next none_later =>
      split at absent
      · cases absent
      · next other =>
        simp only [List.mem_cons, not_or]
        exact ⟨Ne.symm other, ih none_later⟩

theorem rsplitOnce_some {sep : Char} {text before after : Text}
    (found : rsplitOnce sep text = some (before, after)) :
    text = before ++ sep :: after ∧ sep ∉ after := by
  induction text generalizing before with
  | nil => cases found
  | cons c rest ih =>
    rw [rsplitOnce] at found
    split at found
    · next later split_later =>
      cases found
      obtain ⟨whole, absent⟩ := ih split_later
      exact ⟨by rw [whole, List.cons_append], absent⟩
    · next none_later =>
      split at found
      · next here =>
        cases found
        exact ⟨by rw [here, List.nil_append], rsplitOnce_none none_later⟩
      · cases found

theorem maskKeep_eq {text : Text} {keepFirst keepLast : Nat} (ch : Char) (placeholder : Text)
    (room : keepFirst + keepLast < text.length) :
    maskKeep text keepFirst keepLast ch placeholder =
      text.take keepFirst ++ List.replicate (text.length - keepFirst - keepLast) ch ++
        text.drop (text.length - keepLast) := by
  obtain ⟨first, hidden, last, rfl, rfl, rfl, cut⟩ := ends_of_length room
  have between : (first ++ hidden ++ last).length - first.length - last.length =
      hidden.length := by
    simp only [List.length_append]
    omega
  have before_last : (first ++ hidden ++ last).length - last.length =
      (first ++ hidden).length := by
    simp only [List.length_append]
    omega
  rw [maskKeep_parts first hidden last cut, between, before_last, List.drop_left,
    List.append_assoc first hidden last, List.take_left]

theorem maskKeep_short {text : Text} {keepFirst keepLast : Nat} (ch : Char) (placeholder : Text)
    (filled : text ≠ []) (short : ¬ keepFirst + keepLast < text.length) :
    maskKeep text keepFirst keepLast ch placeholder = placeholder := by
  have filled : text.isEmpty = false := by simpa using filled
  have short : keepFirst + keepLast ≥ text.length := by omega
  simp [maskKeep, filled, short]

/-- How many characters a style leaves at the two ends of a name. -/
def NameStyle.ends : NameStyle → Nat × Nat
  | .head => (1, 0)
  | .tail => (0, 1)
  | .full => (0, 0)

theorem maskName_eq {text : Text} (style : NameStyle) (ch : Char) (long : 1 < text.length) :
    maskName text style ch =
      text.take style.ends.1 ++
        List.replicate (text.length - style.ends.1 - style.ends.2) ch ++
          text.drop (text.length - style.ends.2) := by
  match text, long with
  | first :: second :: rest, _ =>
    cases style with
    | head => simp [maskName, NameStyle.ends]
    | tail =>
      have last : (first :: second :: rest).drop (rest.length + 1) =
          [(second :: rest).getLast (by simp)] :=
        List.drop_length_cons (List.cons_ne_nil second rest) first
      simp [maskName, NameStyle.ends, last]
    | full => simp [maskName, NameStyle.ends]

namespace Mask

/-- How many characters a kind leaves at the two ends of a text. -/
def keptEnds (m : Mask) : Nat × Nat :=
  match m.kind with
  | .mobile => (0, m.keepLast.getD 4)
  | .idCard => (m.keepFirst.getD 6, m.keepLast.getD 4)
  | .address => (m.keepFirst.getD 6, m.keepLast.getD 0)
  | .company => (m.keepFirst.getD 4, m.keepLast.getD 0)
  | .name => (m.nameStyle.getD .head).ends
  | _ => (m.keepFirst.getD 0, m.keepLast.getD 0)

/-- What is left of a text: its two ends, the start of a mail address and its domain, or the last
    levels of a domain name. -/
def keptPart (m : Mask) (text : Text) : List Text :=
  match m.kind with
  | .mail =>
    match rsplitOnce '@' text with
    | some (before, domain) =>
      [before.take (m.keepFirst.getD 1), if m.keepDomain.getD true then domain else []]
    | none => []
  | .domain => (domainLevels text).drop ((domainLevels text).length - m.keepLevels.getD 2)
  | _ => [text.take m.keptEnds.1, text.drop (text.length - m.keptEnds.2)]

/-- What masking may answer with. -/
inductive Shows (m : Mask) : Text → Text → Prop
  | placeholder (text : Text) : m.Shows text m.placeholder
  | hidden (text : Text) (n : Nat) : m.Shows text (List.replicate n m.maskChar)
  | ends (first hidden last : Text) (cut : hidden ≠ []) (byChars : m.kind ≠ .mail ∧ m.kind ≠ .domain)
      (ends : (first.length, last.length) = m.keptEnds) :
      m.Shows (first ++ hidden ++ last)
        (first ++ List.replicate hidden.length m.maskChar ++ last)
  | mail (first hidden domain : Text) (cut : hidden ≠ []) (kind : m.kind = .mail)
      (starts : first.length = m.keepFirst.getD 1) (last : '@' ∉ domain) :
      m.Shows (first ++ hidden ++ '@' :: domain)
        (first ++ List.replicate 3 m.maskChar ++
          if m.keepDomain.getD true then '@' :: domain else [])
  | levels (text : Text) (hidden kept : List Text) (cut : hidden ≠ []) (kind : m.kind = .domain)
      (levels : domainLevels text = hidden ++ kept) (ends : kept.length = m.keepLevels.getD 2) :
      m.Shows text (List.replicate 3 m.maskChar ++ '.' :: joinTexts ['.'] kept)

/-- A domain name that has exactly the levels to keep. -/
def KeepsWholeDomain (m : Mask) (text : Text) : Prop :=
  m.kind = .domain ∧ (domainLevels text).length = m.keepLevels.getD 2 ∧ m.keepLevels.getD 2 ≠ 0

variable {m : Mask} {text : Text}

theorem shows_cut {keepFirst keepLast : Nat} (ends : m.keptEnds = (keepFirst, keepLast))
    (byChars : m.kind ≠ .mail ∧ m.kind ≠ .domain) (room : keepFirst + keepLast < text.length) :
    m.Shows text (text.take keepFirst ++
      List.replicate (text.length - keepFirst - keepLast) m.maskChar ++
        text.drop (text.length - keepLast)) := by
  obtain ⟨first, hidden, last, rfl, rfl, rfl, cut⟩ := ends_of_length room
  have shown := Shows.ends first hidden last cut byChars ends.symm
  rwa [← maskKeep_parts first hidden last cut m.maskChar m.placeholder,
    maskKeep_eq _ _ room] at shown

theorem shows_maskKeep {keepFirst keepLast : Nat} (ends : m.keptEnds = (keepFirst, keepLast))
    (byChars : m.kind ≠ .mail ∧ m.kind ≠ .domain) (filled : text ≠ []) :
    m.Shows text (maskKeep text keepFirst keepLast m.maskChar m.placeholder) := by
  by_cases room : keepFirst + keepLast < text.length
  · rw [maskKeep_eq _ _ room]
    exact shows_cut ends byChars room
  · rw [maskKeep_short _ _ filled room]
    exact .placeholder text

theorem shows_maskName {style : NameStyle} (ends : m.keptEnds = style.ends)
    (byChars : m.kind ≠ .mail ∧ m.kind ≠ .domain) (filled : text ≠ []) :
    m.Shows text (maskName text style m.maskChar) := by
  match text, filled with
  | [c], _ => exact .hidden [c] 1
  | first :: second :: rest, _ =>
    have long : 1 < (first :: second :: rest).length := by simp
    have room : style.ends.1 + style.ends.2 < (first :: second :: rest).length := by
      cases style <;> simp [NameStyle.ends]
    rw [maskName_eq style _ long]
    exact shows_cut ends byChars room

theorem shows_maskMail (kind : m.kind = .mail) :
    m.Shows text (maskMail text (m.keepFirst.getD 1) (m.keepDomain.getD true) m.maskChar
      m.placeholder) := by
  unfold maskMail
  split
  · exact .placeholder text
  · next before domain cut_at =>
    obtain ⟨whole, last⟩ := rsplitOnce_some cut_at
    split
    · exact .placeholder text
    · next long =>
      simp only [Bool.or_eq_true, decide_eq_true_eq, not_or] at long
      have hidden : before.drop (m.keepFirst.getD 1) ≠ [] := by
        intro empty
        have gone := List.drop_eq_nil_iff.mp empty
        omega
      have starts : (before.take (m.keepFirst.getD 1)).length = m.keepFirst.getD 1 := by
        rw [List.length_take]
        omega
      have shown := Shows.mail _ _ domain hidden kind starts last
      rwa [List.take_append_drop, ← whole] at shown

theorem shows_maskDomain (kind : m.kind = .domain) (cut : ¬ m.KeepsWholeDomain text) :
    m.Shows text (maskDomain text (m.keepLevels.getD 2) m.maskChar m.placeholder) := by
  unfold maskDomain
  dsimp only
  split
  · exact .placeholder text
  · next enough =>
    simp only [Bool.or_eq_true, decide_eq_true_eq, not_or] at enough
    have more : (domainLevels text).length ≠ m.keepLevels.getD 2 :=
      fun same => cut ⟨kind, same, enough.2⟩
    apply Shows.levels text ((domainLevels text).take
      ((domainLevels text).length - m.keepLevels.getD 2)) _ _ kind
    · exact (List.take_append_drop _ _).symm
    · rw [List.length_drop]
      omega
    · intro empty
      have gone := congrArg List.length empty
      rw [List.length_take, List.length_nil] at gone
      omega

/-- A domain name that has exactly the levels to keep is let through. -/
theorem maskDomain_whole {keepLevels : Nat} {ch : Char} {placeholder : Text}
    (whole : (domainLevels text).length = keepLevels) (kept : keepLevels ≠ 0) :
    maskDomain text keepLevels ch placeholder =
      List.replicate 3 ch ++ '.' :: joinTexts ['.'] (domainLevels text) := by
  have enough : ¬ (decide (keepLevels < keepLevels) || decide (keepLevels = 0)) = true := by
    simp [kept]
  simp only [maskDomain, whole]
  rw [if_neg enough, Nat.sub_self, List.drop_zero]

/-- What a mask answers with leaves only what its kind keeps, and hides something. -/
theorem masked_shows (notIp : m.kind ≠ .ip) (filled : text ≠ [])
    (cut : ¬ m.KeepsWholeDomain text) : m.Shows text (m.masked text) := by
  unfold masked
  dsimp only
  split
  case h_1 kind => exact shows_maskKeep (by simp [keptEnds, kind]) (by simp [kind]) filled
  case h_2 kind => exact shows_maskKeep (by simp [keptEnds, kind]) (by simp [kind]) filled
  case h_3 kind => exact shows_maskMail kind
  case h_4 kind => exact shows_maskDomain kind cut
  case h_5 kind => exact shows_maskName (by simp [keptEnds, kind]) (by simp [kind]) filled
  case h_6 kind => exact shows_maskKeep (by simp [keptEnds, kind]) (by simp [kind]) filled
  case h_7 kind => exact shows_maskKeep (by simp [keptEnds, kind]) (by simp [kind]) filled
  case h_8 kind => exact .placeholder text
  case h_9 kind =>
    split
    · exact .placeholder text
    · exact shows_maskKeep (by simp [keptEnds, kind]) (by simp [kind]) filled
  case h_10 kind => exact absurd kind notIp

/-- Two texts that may be compared: as long as each other, or none of them refused. -/
def Comparable (m : Mask) (t₁ t₂ : Text) : Prop :=
  if m.kind = .mail ∨ m.kind = .domain then
    m.masked t₁ ≠ m.placeholder ∧ m.masked t₂ ≠ m.placeholder
  else t₁.length = t₂.length

variable {t₁ t₂ : Text}

theorem maskKeep_agree {keepFirst keepLast : Nat} {ch : Char} {placeholder : Text}
    (filled₁ : t₁ ≠ []) (filled₂ : t₂ ≠ []) (long : t₁.length = t₂.length)
    (starts : t₁.take keepFirst = t₂.take keepFirst)
    (ends : t₁.drop (t₁.length - keepLast) = t₂.drop (t₂.length - keepLast)) :
    maskKeep t₁ keepFirst keepLast ch placeholder =
      maskKeep t₂ keepFirst keepLast ch placeholder := by
  by_cases room : keepFirst + keepLast < t₁.length
  · rw [maskKeep_eq ch placeholder room, maskKeep_eq ch placeholder (long ▸ room), starts, ends,
      long]
  · rw [maskKeep_short ch placeholder filled₁ room,
      maskKeep_short ch placeholder filled₂ (long ▸ room)]

theorem maskName_short {text : Text} (style : NameStyle) (ch : Char) (short : ¬ 1 < text.length) :
    maskName text style ch = List.replicate text.length ch := by
  cases text with
  | nil => rfl
  | cons first rest =>
    cases rest with
    | nil => rfl
    | cons second rest => simp at short

theorem maskName_agree {style : NameStyle} {ch : Char} (long : t₁.length = t₂.length)
    (starts : t₁.take style.ends.1 = t₂.take style.ends.1)
    (ends : t₁.drop (t₁.length - style.ends.2) = t₂.drop (t₂.length - style.ends.2)) :
    maskName t₁ style ch = maskName t₂ style ch := by
  by_cases two : 1 < t₁.length
  · rw [maskName_eq style ch two, maskName_eq style ch (long ▸ two), starts, ends, long]
  · rw [maskName_short style ch two, maskName_short style ch (long ▸ two), long]

theorem maskMail_agree (kind : m.kind = .mail) (left : m.masked t₁ ≠ m.placeholder)
    (right : m.masked t₂ ≠ m.placeholder) (kept : m.keptPart t₁ = m.keptPart t₂) :
    m.masked t₁ = m.masked t₂ := by
  simp only [masked, kind, maskMail] at left right ⊢
  simp only [keptPart, kind] at kept
  cases first : rsplitOnce '@' t₁ with
  | none => simp [first] at left
  | some split₁ =>
    cases second : rsplitOnce '@' t₂ with
    | none => simp [second] at right
    | some split₂ =>
      simp only [first, second, List.cons.injEq, and_true] at kept left right ⊢
      split at left
      · exact absurd rfl left
      · next long₁ =>
        split at right
        · exact absurd rfl right
        · next long₂ =>
          rw [if_neg long₁, if_neg long₂, kept.1]
          cases domain : m.keepDomain.getD true with
          | false => rfl
          | true => simpa [domain] using kept.2

theorem maskDomain_agree (kind : m.kind = .domain) (left : m.masked t₁ ≠ m.placeholder)
    (right : m.masked t₂ ≠ m.placeholder) (kept : m.keptPart t₁ = m.keptPart t₂) :
    m.masked t₁ = m.masked t₂ := by
  simp only [masked, kind, maskDomain] at left right ⊢
  simp only [keptPart, kind] at kept
  split at left
  · exact absurd rfl left
  · next enough₁ =>
    split at right
    · exact absurd rfl right
    · next enough₂ => rw [if_neg enough₁, if_neg enough₂, kept]

/-- Texts that agree in what is kept of them are masked alike. -/
theorem masked_agree (filled₁ : t₁ ≠ []) (filled₂ : t₂ ≠ []) (comparable : m.Comparable t₁ t₂)
    (kept : m.keptPart t₁ = m.keptPart t₂) : m.masked t₁ = m.masked t₂ := by
  by_cases whole : m.kind = .mail ∨ m.kind = .domain
  · rw [Comparable, if_pos whole] at comparable
    rcases whole with kind | kind
    · exact maskMail_agree kind comparable.1 comparable.2 kept
    · exact maskDomain_agree kind comparable.1 comparable.2 kept
  · rw [Comparable, if_neg whole] at comparable
    rw [not_or] at whole
    have parts : t₁.take m.keptEnds.1 = t₂.take m.keptEnds.1 ∧
        t₁.drop (t₁.length - m.keptEnds.2) = t₂.drop (t₂.length - m.keptEnds.2) := by
      unfold keptPart at kept
      split at kept
      · next kind => exact absurd kind whole.1
      · next kind => exact absurd kind whole.2
      · simpa using kept
    have cut (keepFirst keepLast : Nat) (ends : m.keptEnds = (keepFirst, keepLast)) :
        maskKeep t₁ keepFirst keepLast m.maskChar m.placeholder =
          maskKeep t₂ keepFirst keepLast m.maskChar m.placeholder := by
      rw [ends] at parts
      exact maskKeep_agree filled₁ filled₂ comparable parts.1 parts.2
    unfold masked
    dsimp only
    split
    case h_1 kind => exact cut _ _ (by simp [keptEnds, kind])
    case h_2 kind => exact cut _ _ (by simp [keptEnds, kind])
    case h_3 kind => exact absurd kind whole.1
    case h_4 kind => exact absurd kind whole.2
    case h_5 kind =>
      have style : m.keptEnds = (m.nameStyle.getD .head).ends := by simp [keptEnds, kind]
      rw [style] at parts
      exact maskName_agree comparable parts.1 parts.2
    case h_6 kind => exact cut _ _ (by simp [keptEnds, kind])
    case h_7 kind => exact cut _ _ (by simp [keptEnds, kind])
    case h_8 => rfl
    case h_9 kind =>
      split
      · rfl
      · exact cut _ _ (by simp [keptEnds, kind])
    case h_10 => rfl

end Mask

section Keyed

variable (env : Env)

/-- A value that is neither missing nor an empty text. -/
def Given (value : Value) : Prop := isMissing value = false ∧ valueText env value ≠ some []

theorem Given.filled {env : Env} {value : Value} {text : Text} (given : Given env value)
    (shown : valueText env value = some text) : text.isEmpty = false := by
  cases text with
  | nil => exact absurd shown given.2
  | cons c rest => rfl

theorem Mask.valueCacu_text {m : Mask} (notIp : m.kind ≠ .ip) {field : DataField} {text : Text}
    (shown : valueText env field.value = some text) (filled : text ≠ []) :
    m.valueCacu env field = .fromChars field.name (m.masked text) := by
  have filled : text.isEmpty = false := by simpa using filled
  simp [Mask.valueCacu, shown, filled, notIp]

theorem Mask.valueCacu_ip_refused {m : Mask} (ip : m.kind = .ip) (salted : m.allowUnsalted = false)
    {field : DataField} (given : Given env field.value)
    (refused : ∀ text, valueText env field.value = some text →
      parseIp env text = none ∨ env.secrets.getSecret defaultSaltName = none) :
    m.valueCacu env field = .fromChars field.name m.placeholder := by
  unfold Mask.valueCacu
  split
  · rw [given.1]
    rfl
  · next text shown =>
    have filled := given.filled shown
    simp only [filled, ip, Bool.false_eq_true, if_false, if_true, Mask.maskedIp]
    rcases refused text shown with unread | missing
    · rw [unread]
      rfl
    · rw [missing, salted]
      cases parseIp env text <;> rfl

theorem Hash.valueCacu_refused (h : Hash) {field : DataField} (given : Given env field.value)
    (refused : valueText env field.value = none ∨
      env.secrets.getSecret defaultSaltName = none) :
    h.valueCacu env field = .fromChars field.name defaultPlaceholder := by
  unfold Hash.valueCacu
  split
  · rw [given.1]
    rfl
  · next text shown =>
    have filled := given.filled shown
    have missing : env.secrets.getSecret defaultSaltName = none :=
      refused.resolve_left (by simp [shown])
    simp [filled, missing]

theorem Tokenize.valueCacu_refused (t : Tokenize) {field : DataField}
    (given : Given env field.value)
    (refused : valueText env field.value = none ∨ env.secrets.getSecret defaultKeyName = none) :
    t.valueCacu env field = .fromChars field.name defaultPlaceholder := by
  unfold Tokenize.valueCacu
  split
  · rw [given.1]
    rfl
  · next text shown =>
    have filled := given.filled shown
    have missing : env.secrets.getSecret defaultKeyName = none :=
      refused.resolve_left (by simp [shown])
    simp [filled, missing]

/-- A mask of a kind other than `ip` answers a text with the placeholder, with mask characters, or
    with what its kind keeps while something is hidden, a domain name that has exactly the levels
    to keep apart; texts that agree in what is kept are answered alike. The keyed operators answer
    a given value they cannot read, and every given value without their secret, with the
    placeholder. -/
theorem masking_reveals_only_what_is_kept :
    (∀ (m : Mask) (field : DataField) (text : Text), m.kind ≠ .ip →
      valueText env field.value = some text → text ≠ [] → ¬ m.KeepsWholeDomain text →
        ∃ out, m.valueCacu env field = .fromChars field.name out ∧ m.Shows text out) ∧
    (∀ (m : Mask) (f₁ f₂ : DataField) (t₁ t₂ : Text), m.kind ≠ .ip → f₁.name = f₂.name →
      valueText env f₁.value = some t₁ → valueText env f₂.value = some t₂ → t₁ ≠ [] → t₂ ≠ [] →
        m.Comparable t₁ t₂ → m.keptPart t₁ = m.keptPart t₂ →
          m.valueCacu env f₁ = m.valueCacu env f₂) ∧
    (∀ (m : Mask) (field : DataField), m.kind = .ip → m.allowUnsalted = false →
      Given env field.value →
      (∀ text, valueText env field.value = some text →
        parseIp env text = none ∨ env.secrets.getSecret defaultSaltName = none) →
          m.valueCacu env field = .fromChars field.name m.placeholder) ∧
    (∀ (h : Hash) (field : DataField), Given env field.value →
      (valueText env field.value = none ∨ env.secrets.getSecret defaultSaltName = none) →
        h.valueCacu env field = .fromChars field.name defaultPlaceholder) ∧
    (∀ (t : Tokenize) (field : DataField), Given env field.value →
      (valueText env field.value = none ∨ env.secrets.getSecret defaultKeyName = none) →
        t.valueCacu env field = .fromChars field.name defaultPlaceholder) := by
  refine ⟨?_, ?_, ?_, ?_, ?_⟩
  · intro m field text notIp shown filled cut
    exact ⟨m.masked text, m.valueCacu_text env notIp shown filled,
      Mask.masked_shows notIp filled cut⟩
  · intro m f₁ f₂ t₁ t₂ notIp name shown₁ shown₂ filled₁ filled₂ comparable kept
    rw [m.valueCacu_text env notIp shown₁ filled₁, m.valueCacu_text env notIp shown₂ filled₂,
      Mask.masked_agree filled₁ filled₂ comparable kept, name]
  · intro m field ip salted given refused
    exact m.valueCacu_ip_refused env ip salted given refused
  · intro h field given refused
    exact h.valueCacu_refused env given refused
  · intro t field given refused
    exact t.valueCacu_refused env given refused

end Keyed

/-- An environment without secrets. -/
def noSecrets : Env where
  secrets := .none
  showIp := fun _ => []
  showNet := fun _ => []
  showFloat := fun _ => []
  showHex := fun _ => []
  readIp := fun _ => none
  hmacSha256 := fun _ _ => []
  hmacSha1 := fun _ _ => []
  md5 := fun _ => []
  hexEncode := fun _ => []
  base64Encode := fun _ => []
  newCipher := fun _ => none
  nonce := []

def maskMobile : Mask := ⟨.mobile, none, none, none, none, none, none, none, none, false⟩

def phone (number : String) : DataField := ⟨.chars, "mobile".toList, .chars number.toList⟩

theorem two_phone_numbers_are_masked_alike :
    maskMobile.valueCacu noSecrets (phone "13800138000") =
      maskMobile.valueCacu noSecrets (phone "15912348000") :=
  (masking_reveals_only_what_is_kept noSecrets).2.1 maskMobile (phone "13800138000")
    (phone "15912348000") "13800138000".toList "15912348000".toList (by decide) rfl rfl rfl
    (by simp) (by simp)
    (show (if maskMobile.kind = .mail ∨ maskMobile.kind = .domain then _ else _) by
      rw [if_neg (by decide)]
      decide)
    (by decide)

/-- A missing value is passed on: neither a text nor the placeholder. -/
theorem hash_passes_null :
    valueText noSecrets .null = none ∧
    Hash.valueCacu noSecrets ⟨.sha256, .hex, none⟩ ⟨.chars, "h".toList, .null⟩ ≠
      .fromChars "h".toList defaultPlaceholder := by
  constructor
  · rfl
  · intro same
    cases congrArg DataField.value same

end WarpMotor.Privacy
