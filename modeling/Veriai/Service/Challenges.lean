import Veriai.Core.Protocol
import Veriai.Service.Records

/-!
# The records of issued challenges

A record stands under the nonce it was issued for or under one reserved name,
never under both, and under none once it was consumed. A reserved name belongs
to the call its number was drawn for, so that no other call can give the record
back or consume it.
-/

namespace Veriai.Service

variable {Text : Type} {formats : Formats Text} {env : Primitives} {hz : Hazards} {config : Config}

/-- The number in a reserved name is drawn like that of a temporary file. -/
def ReservedName.slot (name : ReservedName) : TempName := ⟨name.pid, name.counter⟩

/-- What holds of the records between all operations. -/
structure ChallengeInv (w : World Text) : Prop where
  names : w.NamesDrawn
  available : ∀ nonce, w.available nonce = true → w.issued nonce ≠ none ∧ w.consumed nonce = none
  reserved : ∀ name : ReservedName, w.reserved name = true →
    w.issued name.nonce ≠ none ∧ w.consumed name.nonce = none ∧ w.available name.nonce = false
  single : ∀ name name' : ReservedName, w.reserved name = true → w.reserved name' = true →
    name.nonce = name'.nonce → name = name'
  consumed : ∀ nonce, w.consumed nonce ≠ none → w.issued nonce ≠ none
  /-- A record may not be written to its end. -/
  record : ∀ nonce issuer expiresAt, w.issued nonce = some (issuer, expiresAt) →
    w.record nonce <+: decimal expiresAt ++ ['\n']
  inTime : ∀ t nonce clock, (t, nonce, clock) ∈ w.reservations → ∃ now issuer expiresAt,
    clock = some now ∧ w.issued nonce = some (issuer, expiresAt) ∧ now ≤ expiresAt

/-- What was issued, consumed and reserved is not forgotten. -/
structure Remembers (w w' : World Text) : Prop where
  issued : ∀ nonce x, w.issued nonce = some x → w'.issued nonce = some x
  consumed : ∀ nonce t, w.consumed nonce = some t → w'.consumed nonce = some t
  reservations : w.reservations ⊆ w'.reservations

/-- What a call can count on while the others act. -/
structure RelyRecords (t : CallId) (w w' : World Text) : Prop extends Remembers w w' where
  clock : w'.clock t = w.clock t
  record : ∀ nonce expiresAt, w.issued nonce = some (t, expiresAt) →
    w'.record nonce = w.record nonce
  slots : ∀ name, w.slots name = some t → w'.slots name = some t
  reserved : ∀ name : ReservedName, w.slots name.slot = some t → w'.reserved name = w.reserved name

/-- When a call may perform an operation. -/
def mayTouch (t : CallId) : Op Text → World Text → Prop
  | .writeRecord nonce c, w => ∃ expiresAt, w.issued nonce = some (t, expiresAt) ∧
      w.record nonce ++ [c] <+: decimal expiresAt ++ ['\n']
  | .reserveRecord name, w => w.slots name.slot = some t ∧ ∃ now issuer expiresAt,
      w.clock t = some now ∧ w.issued name.nonce = some (issuer, expiresAt) ∧ now ≤ expiresAt
  | .restoreRecord name, w => w.slots name.slot = some t
  | .consumeRecord name, w => w.slots name.slot = some t
  | _, _ => True

/-- The rules of the records. -/
def challengeContract : Contract CallId (World Text) (Op Text) where
  inv := ChallengeInv
  rely := RelyRecords
  permit := mayTouch
  later := Remembers

theorem Remembers.refl (w : World Text) : Remembers w w :=
  ⟨fun _ _ h => h, fun _ _ h => h, List.Subset.refl _⟩

/-- What is remembered over two steps. -/
theorem Remembers.trans {w w₁ w' : World Text} (h : Remembers w w₁) (h' : Remembers w₁ w') :
    Remembers w w' where
  issued nonce x hx := h'.issued nonce x (h.issued nonce x hx)
  consumed nonce t ht := h'.consumed nonce t (h.consumed nonce t ht)
  reservations := fun _ hr => h'.reservations (h.reservations hr)

theorem RelyRecords.refl (t : CallId) (w : World Text) : RelyRecords t w w :=
  ⟨.refl w, rfl, fun _ _ _ => rfl, fun _ h => h, fun _ _ => rfl⟩

/-- What can be counted on over two steps. -/
theorem RelyRecords.trans {t : CallId} {w w₁ w' : World Text} (h : RelyRecords t w w₁)
    (h' : RelyRecords t w₁ w') : RelyRecords t w w' where
  toRemembers := h.toRemembers.trans h'.toRemembers
  clock := h'.clock.trans h.clock
  record nonce expiresAt hi :=
    (h'.record nonce expiresAt (h.issued nonce _ hi)).trans (h.record nonce expiresAt hi)
  slots name hs := h'.slots name (h.slots name hs)
  reserved name hs := (h'.reserved name (h.slots _ hs)).trans (h.reserved name hs)

section Keeps

variable {t : CallId} {w w' : World Text}

/-- A step that spares the records forgets nothing of them. -/
theorem Spares.remembers (h : Spares t w w') : Remembers w w' where
  issued nonce x hx := by rw [h.issued, hx]
  consumed nonce t ht := by rw [h.consumed, ht]
  reservations := by rw [h.reservations]; exact List.Subset.refl _

/-- Names in use stay drawn. -/
theorem Spares.names (hw : w.NamesDrawn) (h : Spares t w w') : w'.NamesDrawn := by
  intro name t' hs
  rcases h.slots with hsame | ⟨p, p', hp, hp', hlt, hdrawn⟩
  · rw [hsame] at hs
    obtain ⟨hpid, p, hp, hlt⟩ := hw name t' hs
    obtain ⟨p', hp', hle⟩ := h.procs _ p hp
    exact ⟨hpid, p', hp', by omega⟩
  · rw [hdrawn] at hs
    by_cases hname : name = ⟨t.pid, p.counter⟩
    · subst hname
      rw [Function.update_self] at hs
      obtain rfl := Option.some.inj hs
      exact ⟨rfl, p', hp', hlt⟩
    · rw [Function.update_of_ne hname] at hs
      obtain ⟨hpid, q, hq, hlt'⟩ := hw name t' hs
      obtain ⟨q', hq', hle⟩ := h.procs _ q hq
      exact ⟨hpid, q', hq', by omega⟩

/-- A name in use stays with its call. -/
theorem Spares.keeps_slots (hw : w.NamesDrawn) (h : Spares t w w') {name : TempName} {t' : CallId}
    (hs : w.slots name = some t') : w'.slots name = some t' := by
  rcases h.slots with hsame | ⟨p, p', hp, -, -, hdrawn⟩
  · rw [hsame, hs]
  · have hname : name ≠ ⟨t.pid, p.counter⟩ := by
      rintro rfl
      rw [hw.next_free hp] at hs
      cases hs
    rw [hdrawn, Function.update_of_ne hname, hs]

/-- A step that spares the records is nothing to count with for any call. -/
theorem Spares.rely (hw : w.NamesDrawn) (h : Spares t w w') (t' : CallId) :
    RelyRecords t' w w' where
  toRemembers := h.remembers
  clock := by rw [h.clock]
  record nonce _ _ := by rw [h.record]
  slots name hs := h.keeps_slots hw hs
  reserved name _ := by rw [h.reserved]

/-- A step that spares the records keeps their invariant. -/
theorem Spares.inv (hw : ChallengeInv w) (h : Spares t w w') : ChallengeInv w' where
  names := h.names hw.names
  available := by rw [h.available, h.issued, h.consumed]; exact hw.available
  reserved := by rw [h.reserved, h.available, h.issued, h.consumed]; exact hw.reserved
  single := by rw [h.reserved]; exact hw.single
  consumed := by rw [h.issued, h.consumed]; exact hw.consumed
  record := by rw [h.issued, h.record]; exact hw.record
  inTime := by rw [h.issued, h.reservations]; exact hw.inTime

/-- A step that spares the records keeps their rules. -/
theorem Spares.keepsRecords (hw : ChallengeInv w) (h : Spares t w w') (spared : CallId → Prop) :
    challengeContract.Keeps spared w w' :=
  ⟨h.inv hw, h.remembers, fun t' _ => h.rely hw.names t'⟩

/-- Two steps that keep the rules keep them together. -/
theorem keepsRecords_trans {spared : CallId → Prop} {w₁ : World Text}
    (h : challengeContract.Keeps spared w w₁) (h' : challengeContract.Keeps spared w₁ w') :
    challengeContract.Keeps spared w w' :=
  ⟨h'.inv, h.later.trans h'.later, fun t ht => (h.rely t ht).trans (h'.rely t ht)⟩

/-- The clock is read. -/
theorem keepsRecords_clock (hw : ChallengeInv w) (now : UInt64) :
    challengeContract.Keeps (· ≠ t) w
      { w with clock := Function.update w.clock t (some now) } where
  inv := ⟨hw.names, hw.available, hw.reserved, hw.single, hw.consumed, hw.record, hw.inTime⟩
  later := ⟨fun _ _ h => h, fun _ _ h => h, List.Subset.refl _⟩
  rely t' ht' := { RelyRecords.refl t' w with clock := Function.update_of_ne ht' _ _ }

/-- A new record is created, empty. -/
theorem keepsRecords_create (hw : ChallengeInv w) {nonce : ByteArr 32} {expiresAt : UInt64}
    (hnew : w.issued nonce = none) :
    challengeContract.Keeps (· ≠ t) w { w with
      available := Function.update w.available nonce true
      record := Function.update w.record nonce []
      issued := Function.update w.issued nonce (some (t, expiresAt)) } := by
  have hother : ∀ nonce', w.issued nonce' ≠ none → nonce' ≠ nonce := by
    rintro nonce' hissued rfl
    exact hissued hnew
  have hunspent : w.consumed nonce = none := by
    by_contra hspent
    exact hw.consumed nonce hspent hnew
  have hkept : ∀ nonce' x, w.issued nonce' = some x →
      Function.update w.issued nonce (some (t, expiresAt)) nonce' = some x := by
    intro nonce' x hx
    rw [Function.update_of_ne (hother nonce' (by simp [hx])), hx]
  have hstill : ∀ nonce', w.issued nonce' ≠ none →
      Function.update w.issued nonce (some (t, expiresAt)) nonce' ≠ none := by
    intro nonce' hissued
    rwa [Function.update_of_ne (hother nonce' hissued)]
  refine ⟨⟨hw.names, ?_, ?_, hw.single, fun n h => hstill n (hw.consumed n h), ?_, ?_⟩,
    ⟨hkept, fun _ _ h => h, List.Subset.refl _⟩, ?_⟩
  · intro nonce' ha
    by_cases hn : nonce' = nonce
    · subst hn
      exact ⟨by simp, hunspent⟩
    · obtain ⟨hissued, hspent⟩ := hw.available nonce' ((Function.update_of_ne hn _ _).symm.trans ha)
      exact ⟨hstill nonce' hissued, hspent⟩
  · intro name hr
    obtain ⟨hissued, hspent, ha⟩ := hw.reserved name hr
    refine ⟨hstill _ hissued, hspent, ?_⟩
    rw [← ha]
    exact Function.update_of_ne (hother _ hissued) _ _
  · intro nonce' issuer e hi
    by_cases hn : nonce' = nonce
    · subst hn
      simp
    · dsimp only at hi ⊢
      rw [Function.update_of_ne hn] at hi ⊢
      exact hw.record nonce' issuer e hi
  · intro t' nonce' clock hr
    obtain ⟨now, issuer, e, hclock, hi, hle⟩ := hw.inTime t' nonce' clock hr
    exact ⟨now, issuer, e, hclock, hkept _ _ hi, hle⟩
  · intro t' _
    refine { RelyRecords.refl t' w with issued := hkept, record := ?_ }
    intro nonce' e hi
    exact Function.update_of_ne (hother nonce' (by simp [hi])) _ _

/-- The issuer of a record writes on. -/
theorem keepsRecords_write (hw : ChallengeInv w) {nonce : ByteArr 32} {c : Char}
    (hmay : mayTouch t (.writeRecord nonce c) w) :
    challengeContract.Keeps (· ≠ t) w
      { w with record := Function.update w.record nonce (w.record nonce ++ [c]) } := by
  obtain ⟨expiresAt, hissued, hprefix⟩ := hmay
  refine ⟨⟨hw.names, hw.available, hw.reserved, hw.single, hw.consumed, ?_, hw.inTime⟩,
    ⟨fun _ _ h => h, fun _ _ h => h, List.Subset.refl _⟩, ?_⟩
  · intro nonce' issuer e hi
    by_cases hn : nonce' = nonce
    · subst hn
      obtain ⟨rfl, rfl⟩ := Prod.mk.inj (Option.some.inj (hissued.symm.trans hi))
      simpa using hprefix
    · dsimp only
      rw [Function.update_of_ne hn]
      exact hw.record nonce' issuer e hi
  · intro t' ht'
    refine { RelyRecords.refl t' w with record := ?_ }
    intro nonce' e hi
    refine Function.update_of_ne ?_ _ _
    rintro rfl
    exact ht' (Prod.mk.inj (Option.some.inj (hi.symm.trans hissued))).1

/-- A record that is available is removed. -/
theorem keepsRecords_remove (hw : ChallengeInv w) (nonce : ByteArr 32) :
    challengeContract.Keeps (· ≠ t) w
      { w with available := Function.update w.available nonce false } := by
  have hbefore : ∀ nonce', Function.update w.available nonce false nonce' = true →
      w.available nonce' = true := by
    intro nonce' ha
    by_cases hn : nonce' = nonce
    · simp [hn] at ha
    · rwa [Function.update_of_ne hn] at ha
  refine ⟨⟨hw.names, fun n ha => hw.available n (hbefore n ha), ?_, hw.single, hw.consumed,
    hw.record, hw.inTime⟩, ⟨fun _ _ h => h, fun _ _ h => h, List.Subset.refl _⟩, fun t' _ => ?_⟩
  · intro name hr
    obtain ⟨hissued, hspent, ha⟩ := hw.reserved name hr
    refine ⟨hissued, hspent, ?_⟩
    by_contra hne
    rw [hbefore _ ((Bool.not_eq_false _).mp hne)] at ha
    cases ha
  · exact { RelyRecords.refl t' w with }

/-- A record that is available is renamed to a reserved name of the call. -/
theorem keepsRecords_reserve (hw : ChallengeInv w) {name : ReservedName}
    (hmay : mayTouch t (.reserveRecord name) w) (havailable : w.available name.nonce = true) :
    challengeContract.Keeps (· ≠ t) w { w with
      available := Function.update w.available name.nonce false
      reserved := Function.update w.reserved name true
      reservations := w.reservations ++ [(t, name.nonce, w.clock t)] } := by
  obtain ⟨hslot, now, issuer, expiresAt, hclock, hissued, hle⟩ := hmay
  have hother : ∀ name' : ReservedName, w.reserved name' = true → name'.nonce ≠ name.nonce := by
    intro name' hr hn
    have hfree := (hw.reserved name' hr).2.2
    rw [hn, havailable] at hfree
    cases hfree
  have hbefore : ∀ name' : ReservedName, name' ≠ name →
      Function.update w.reserved name true name' = true → w.reserved name' = true := by
    intro name' hne hr
    rwa [Function.update_of_ne hne] at hr
  refine ⟨⟨hw.names, ?_, ?_, ?_, hw.consumed, hw.record, ?_⟩,
    ⟨fun _ _ h => h, fun _ _ h => h, List.subset_append_left _ _⟩, ?_⟩
  · intro nonce ha
    by_cases hn : nonce = name.nonce
    · simp [hn] at ha
    · exact hw.available nonce ((Function.update_of_ne hn _ _).symm.trans ha)
  · intro name' hr
    by_cases hname : name' = name
    · subst hname
      obtain ⟨hi, hspent⟩ := hw.available name'.nonce havailable
      exact ⟨hi, hspent, Function.update_self ..⟩
    · have hr' := hbefore name' hname hr
      obtain ⟨hi, hspent, ha⟩ := hw.reserved name' hr'
      exact ⟨hi, hspent, (Function.update_of_ne (hother name' hr') _ _).trans ha⟩
  · intro name₁ name₂ h₁ h₂ hn
    by_cases hname₁ : name₁ = name
    · by_cases hname₂ : name₂ = name
      · rw [hname₁, hname₂]
      · exact (hother name₂ (hbefore name₂ hname₂ h₂) (by rw [← hn, hname₁])).elim
    · have hr := hbefore name₁ hname₁ h₁
      by_cases hname₂ : name₂ = name
      · exact (hother name₁ hr (by rw [hn, hname₂])).elim
      · exact hw.single name₁ name₂ hr (hbefore name₂ hname₂ h₂) hn
  · intro t' nonce clock hr
    rcases List.mem_append.mp hr with hr | hr
    · exact hw.inTime t' nonce clock hr
    · obtain ⟨rfl, rfl, rfl⟩ : t' = t ∧ nonce = name.nonce ∧ clock = w.clock t := by simpa using hr
      exact ⟨now, issuer, expiresAt, hclock, hissued, hle⟩
  · intro t' ht'
    refine { RelyRecords.refl t' w with
      reservations := List.subset_append_left _ _, reserved := ?_ }
    intro name' hs
    refine Function.update_of_ne ?_ _ _
    rintro rfl
    exact ht' (Option.some.inj (hs.symm.trans hslot))

/-- Once a reserved name is given up, no record of its nonce is reserved. -/
theorem ChallengeInv.unreserved (hw : ChallengeInv w) {name name' : ReservedName}
    (hreserved : w.reserved name = true)
    (h : Function.update w.reserved name false name' = true) :
    w.reserved name' = true ∧ name'.nonce ≠ name.nonce := by
  have hname : name' ≠ name := by
    rintro rfl
    simp at h
  rw [Function.update_of_ne hname] at h
  exact ⟨h, fun hn => hname (hw.single name' name h hreserved hn)⟩

/-- A reserved record is renamed back. -/
theorem keepsRecords_restore (hw : ChallengeInv w) {name : ReservedName}
    (hslot : w.slots name.slot = some t) (hreserved : w.reserved name = true) :
    challengeContract.Keeps (· ≠ t) w { w with
      available := Function.update w.available name.nonce true
      reserved := Function.update w.reserved name false } := by
  refine ⟨⟨hw.names, ?_, ?_, ?_, hw.consumed, hw.record, hw.inTime⟩,
    ⟨fun _ _ h => h, fun _ _ h => h, List.Subset.refl _⟩, ?_⟩
  · intro nonce ha
    by_cases hn : nonce = name.nonce
    · obtain ⟨hi, hspent, -⟩ := hw.reserved name hreserved
      rw [hn]
      exact ⟨hi, hspent⟩
    · exact hw.available nonce ((Function.update_of_ne hn _ _).symm.trans ha)
  · intro name' hr
    obtain ⟨hr', hn⟩ := hw.unreserved hreserved hr
    obtain ⟨hi, hspent, ha⟩ := hw.reserved name' hr'
    exact ⟨hi, hspent, (Function.update_of_ne hn _ _).trans ha⟩
  · intro name₁ name₂ h₁ h₂ hn
    exact hw.single name₁ name₂ (hw.unreserved hreserved h₁).1 (hw.unreserved hreserved h₂).1 hn
  · intro t' ht'
    refine { RelyRecords.refl t' w with reserved := ?_ }
    intro name' hs
    refine Function.update_of_ne ?_ _ _
    rintro rfl
    exact ht' (Option.some.inj (hs.symm.trans hslot))

/-- A reserved record is removed for good. -/
theorem keepsRecords_consume (hw : ChallengeInv w) {name : ReservedName}
    (hslot : w.slots name.slot = some t) (hreserved : w.reserved name = true) :
    challengeContract.Keeps (· ≠ t) w { w with
      reserved := Function.update w.reserved name false
      consumed := Function.update w.consumed name.nonce (some t) } := by
  obtain ⟨hissued, hunspent, hfree⟩ := hw.reserved name hreserved
  have hkept : ∀ nonce t', w.consumed nonce = some t' →
      Function.update w.consumed name.nonce (some t) nonce = some t' := by
    intro nonce t' hc
    have hn : nonce ≠ name.nonce := by
      rintro rfl
      rw [hunspent] at hc
      cases hc
    rw [Function.update_of_ne hn, hc]
  refine ⟨⟨hw.names, ?_, ?_, ?_, ?_, hw.record, hw.inTime⟩,
    ⟨fun _ _ h => h, hkept, List.Subset.refl _⟩, ?_⟩
  · intro nonce ha
    have hn : nonce ≠ name.nonce := by
      rintro rfl
      exact Bool.false_ne_true (hfree.symm.trans ha)
    obtain ⟨hi, hspent⟩ := hw.available nonce ha
    exact ⟨hi, (Function.update_of_ne hn _ _).trans hspent⟩
  · intro name' hr
    obtain ⟨hr', hn⟩ := hw.unreserved hreserved hr
    obtain ⟨hi, hspent, ha⟩ := hw.reserved name' hr'
    exact ⟨hi, (Function.update_of_ne hn _ _).trans hspent, ha⟩
  · intro name₁ name₂ h₁ h₂ hn
    exact hw.single name₁ name₂ (hw.unreserved hreserved h₁).1 (hw.unreserved hreserved h₂).1 hn
  · intro nonce hc
    by_cases hn : nonce = name.nonce
    · rw [hn]
      exact hissued
    · exact hw.consumed nonce (by rwa [← Function.update_of_ne hn (some t) w.consumed])
  · intro t' ht'
    refine { RelyRecords.refl t' w with consumed := hkept, reserved := ?_ }
    intro name' hs
    refine Function.update_of_ne ?_ _ _
    rintro rfl
    exact ht' (Option.some.inj (hs.symm.trans hslot))

/-- Every permitted operation keeps the rules. -/
theorem exec_keepsRecords {o : Op Text} {r : Res Text o} (hw : ChallengeInv w)
    (hmay : mayTouch t o w) (h : exec env hz t o r w w') :
    challengeContract.Keeps (· ≠ t) w w' := by
  have hspares : SparesRecords o → challengeContract.Keeps (· ≠ t) w w' :=
    fun ho => (exec_spares ho h).keepsRecords hw _
  have hsame : challengeContract.Keeps (· ≠ t) w w := (Spares.refl (t := t) w).keepsRecords hw _
  cases o with
  | unixSeconds =>
    rcases h with ⟨now, -, rfl⟩ | ⟨-, rfl⟩
    · exact keepsRecords_clock hw now
    · exact hsame
  | createRecord nonce expiresAt =>
    rcases h with ⟨-, -, hnew, rfl⟩ | ⟨-, -, rfl⟩ | ⟨-, -, rfl⟩
    · exact keepsRecords_create hw hnew
    · exact hsame
    · exact hsame
  | writeRecord nonce c =>
    rcases h with ⟨-, rfl⟩ | ⟨-, -, rfl⟩
    · exact keepsRecords_write hw hmay
    · exact hsame
  | removeAvailable nonce =>
    rcases h with ⟨-, -, rfl⟩ | ⟨-, -, rfl⟩ | ⟨-, -, rfl⟩
    · exact keepsRecords_remove hw nonce
    · exact hsame
    · exact hsame
  | reserveRecord name =>
    rcases h with ⟨havailable, -, rfl⟩ | ⟨-, -, rfl⟩ | ⟨-, -, rfl⟩
    · exact keepsRecords_reserve hw hmay havailable
    · exact hsame
    · exact hsame
  | restoreRecord name =>
    rcases h with ⟨hreserved, -, rfl⟩ | ⟨-, -, rfl⟩ | ⟨-, -, rfl⟩
    · exact keepsRecords_restore hw hmay hreserved
    · exact hsame
    · exact hsame
  | consumeRecord name =>
    rcases h with ⟨hreserved, -, rfl⟩ | ⟨-, -, rfl⟩ | ⟨-, -, rfl⟩
    · exact keepsRecords_consume hw hmay hreserved
    · exact hsame
    · exact hsame
  | _ => exact hspares trivial

/-- A call that is dropped leaves its record as it is. -/
theorem keepsRecords_abandon (hw : ChallengeInv w) :
    challengeContract.Keeps (· ≠ t) w ((w.dropLock t).dropGuard t) := by
  have hlock := (Spares.dropLock (t := t) w).keepsRecords hw (· ≠ t)
  exact keepsRecords_trans hlock ((Spares.dropGuard _).keepsRecords hlock.inv _)

/-- So does a process that crashes. -/
theorem keepsRecords_crash (hw : ChallengeInv w) (pid : Nat) :
    challengeContract.Keeps (fun t => (t.pid == pid) = false) w (w.crash pid) where
  inv := ⟨hw.names.crash pid, hw.available, hw.reserved, hw.single, hw.consumed, hw.record,
    hw.inTime⟩
  later := ⟨fun _ _ h => h, fun _ _ h => h, List.Subset.refl _⟩
  rely t ht := { RelyRecords.refl t w with
    slots := fun _ hs => hw.names.slots_crash (by simpa using ht) hs }

/-- A new process keeps the rules of the records. -/
theorem keepsRecords_boot (hw : ChallengeInv w) {pid : Nat} (hfree : w.procs pid = none)
    (p : Process) (spared : CallId → Prop) :
    challengeContract.Keeps spared w (w.setProc pid (some p)) where
  inv := ⟨hw.names.boot hfree p, hw.available, hw.reserved, hw.single, hw.consumed, hw.record,
    hw.inTime⟩
  later := ⟨fun _ _ h => h, fun _ _ h => h, List.Subset.refl _⟩
  rely t _ := { RelyRecords.refl t w with }

end Keeps

variable (formats env hz config) in
/-- The rules of the records are a protocol of the service. -/
def challengeProtocol : Protocol (service formats env hz config) where
  toContract := challengeContract
  rely_refl := RelyRecords.refl
  rely_trans _ _ _ _ := RelyRecords.trans
  later_refl := Remembers.refl
  later_trans _ _ _ := Remembers.trans
  exec_keeps _ _ _ _ _ hw hmay h := exec_keepsRecords hw hmay h
  start_keeps := by
    rintro t c w w' hw ⟨_, rfl⟩
    exact (Spares.refl (t := t) _).keepsRecords hw _
  abandon_keeps := by
    rintro t o goesOn w w' hw hmay ⟨_, _, hpool, rfl⟩
    refine ⟨keepsRecords_abandon hw, ?_⟩
    intro hgoesOn
    refine wp_leftover ?_ fun _ _ => trivial
    intro w₁ _ _
    -- nothing on the blocking pool touches a record
    cases o with
    | writeRecord nonce c => exact (hpool hgoesOn).elim
    | reserveRecord name => exact (hpool hgoesOn).elim
    | restoreRecord name => exact (hpool hgoesOn).elim
    | consumeRecord name => exact (hpool hgoesOn).elim
    | _ => trivial
  ambient_keeps := by
    rintro ended w w' hw h
    cases h with
    | boot hfree _ => exact keepsRecords_boot hw hfree _ _
    | crash _ _ => exact keepsRecords_crash hw _

/-- Without a challenge there is nothing to keep. -/
theorem World.challengeInv_initial (file : Option Text) : ChallengeInv (World.initial file) where
  names _ _ hs := by cases hs
  available _ ha := by cases ha
  reserved _ hr := by cases hr
  single _ _ hr := by cases hr
  consumed _ hc := (hc rfl).elim
  record _ _ _ hi := by cases hi
  inTime _ _ _ hr := (List.not_mem_nil hr).elim

end Veriai.Service
