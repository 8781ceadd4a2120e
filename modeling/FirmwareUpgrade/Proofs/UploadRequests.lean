import FirmwareUpgrade.Proofs.Uploading

/-!
# The requests of an upload

What may be asked of the device at a point of an upload depends on the transfers before it: their
blocks give the number and the length of the next one, and a short or failed answer is the end.
Each transfer of an upload is shown to be in its place after those before it, which holds of the
whole upload because each round extends the history by one block.
-/

namespace FirmwareUpgrade

variable {ω : Type}

/-! ## Views of the transfers -/

def Exchange.isUpload : Exchange → Bool
  | .receive .upload _ _ _ => true
  | _ => false

def Exchange.failed : Exchange → Bool
  | .out _ _ _ (.error _) | .receive _ _ _ (.error _) => true
  | _ => false

/-- The bytes of a block that was read. -/
def Exchange.received : Exchange → List UInt8
  | .receive .upload _ _ (.ok data) => data.data.toList
  | _ => []

def uploads (transfers : List Exchange) : Nat :=
  transfers.countP Exchange.isUpload

def receivedBytes (transfers : List Exchange) : List UInt8 :=
  transfers.flatMap Exchange.received

@[simp]
theorem uploads_append (first second : List Exchange) :
    uploads (first ++ second) = uploads first + uploads second :=
  List.countP_append

@[simp]
theorem receivedBytes_append (first second : List Exchange) :
    receivedBytes (first ++ second) = receivedBytes first ++ receivedBytes second :=
  List.flatMap_append

theorem length_receivedBytes_cons (block length : UInt16) (data : ByteArray)
    (transfers : List Exchange) :
    (receivedBytes (.receive .upload block length (.ok data) :: transfers)).length =
      data.size + (receivedBytes transfers).length := by
  simp [receivedBytes, Exchange.received]

/-! ## Transfers in their place -/

/-- The device has accepted to give up any transfer, and then said that it is idle. -/
def BeginsIdle (transfers : List Exchange) : Prop :=
  ∃ count bytes rest, transfers = .out .abort 0 .empty (.ok count) ::
    .receive .getStatus 0 6 (.ok bytes) :: rest ∧ (reportOf bytes).2 = .dfuIdle

theorem BeginsIdle.append {transfers : List Exchange} (hidle : BeginsIdle transfers)
    (more : List Exchange) : BeginsIdle (transfers ++ more) := by
  obtain ⟨count, bytes, rest, rfl, hstate⟩ := hidle
  exact ⟨count, bytes, rest ++ more, rfl, hstate⟩

/-- A block is asked for by the next number, and for no more bytes than may still come. -/
structure AsksForNext (chunk : Nat) (limit : Option Nat) (earlier : List Exchange)
    (block length : UInt16) : Prop where
  numbered : block.toNat = uploads earlier % UInt16.size
  sized : length.toNat =
    match limit with
    | some limit => min (limit - (receivedBytes earlier).length) chunk
    | none => chunk
  positive : 0 < length.toNat
  readied : BeginsIdle earlier

structure InPlace (chunk : Nat) (limit : Option Nat) (earlier : List Exchange)
    (transfer : Exchange) (later : List Exchange) : Prop where
  asks : ∀ block length answer, transfer = .receive .upload block length answer →
    AsksForNext chunk limit earlier block length
  within : ∀ most ∈ limit, (receivedBytes (earlier ++ [transfer])).length ≤ most
  /-- A short block is the last. -/
  short : ∀ block length data, transfer = .receive .upload block length (.ok data) →
    data.size < length.toNat → later = []
  failure : transfer.failed → later = []

/-- After the history, each of the transfers is in its place. -/
def Continues (chunk : Nat) (limit : Option Nat) (history transfers : List Exchange) : Prop :=
  ∀ earlier transfer later, transfers = earlier ++ transfer :: later →
    InPlace chunk limit (history ++ earlier) transfer later

section Continuing

variable {chunk : Nat} {limit : Option Nat} {history transfers : List Exchange}
  {transfer : Exchange}

theorem continues_nil : Continues chunk limit history [] := by
  intro earlier transfer later hsplit
  simp at hsplit

theorem Continues.cons (hfirst : InPlace chunk limit history transfer transfers)
    (hrest : Continues chunk limit (history ++ [transfer]) transfers) :
    Continues chunk limit history (transfer :: transfers) := by
  intro earlier next later hsplit
  cases earlier with
  | nil =>
      obtain ⟨rfl, rfl⟩ := List.cons.inj hsplit
      rwa [List.append_nil]
  | cons head earlier =>
      obtain ⟨rfl, hinside⟩ := List.cons.inj hsplit
      have hnext := hrest earlier next later hinside
      rwa [List.append_assoc] at hnext

theorem InPlace.of_request {later : List Exchange} (hrequest : transfer.isUpload = false)
    (hwithin : ∀ most ∈ limit, (receivedBytes history).length ≤ most)
    (hfailure : transfer.failed → later = []) : InPlace chunk limit history transfer later where
  asks := by
    rintro block length answer rfl
    contradiction
  within := by
    have hnone : transfer.received = [] := by
      unfold Exchange.isUpload at hrequest
      unfold Exchange.received
      split at hrequest
      · contradiction
      · split <;> simp_all
    simpa [receivedBytes, hnone] using hwithin
  short := by
    rintro block length data rfl
    contradiction
  failure := hfailure

end Continuing

/-! ## Each transfer of an upload is in its place -/

/-- No answer is longer than what was asked for. -/
def ControlPipe.Fits (pipe : ControlPipe ω) : Prop :=
  ∀ request value length world bytes delay after,
    pipe.onIn request value length world = (⟨.ok bytes, delay⟩, after) → bytes.size ≤ length.toNat

theorem ControlPipe.Fits.asked {pipe : ControlPipe ω} (hfits : pipe.Fits) {request : Request}
    {value length : UInt16} {before after : Moment ω} {bytes : ByteArray} {delay : Nat}
    (hasked : pipe.asked request value length before = (⟨.ok bytes, delay⟩, after)) :
    bytes.size ≤ length.toNat := by
  rcases hreact : pipe.onIn request value length before.world with ⟨reaction, world⟩
  rw [ControlPipe.asked_eq hreact] at hasked
  cases hasked
  exact hfits _ _ _ _ _ _ _ hreact

namespace Session

open Upload

variable {session : Session ω} {chunk bound position : Nat} {limit : Option Nat}
  {received : ByteArray} {before after : Moment ω} {deeds : List Event} {history : List Exchange}

theorem nextLength_le (chunk : Nat) (limit : Option Nat) (received : Nat) :
    nextLength chunk limit received ≤ chunk := by
  cases limit with
  | none => exact Nat.le_refl chunk
  | some limit => exact Nat.min_le_right _ _

theorem toNat_nextLength (hchunk : chunk < UInt16.size) (limit : Option Nat) (received : Nat) :
    (UInt16.ofNat (nextLength chunk limit received)).toNat = nextLength chunk limit received := by
  have hle := nextLength_le chunk limit received
  exact UInt16.toNat_ofNat_of_lt (Nat.lt_of_le_of_lt hle hchunk)

/-- The transfers before the block with this position, in which so many bytes were received. -/
structure Reached (position : Nat) (received : ByteArray) (history : List Exchange) : Prop where
  count : uploads history = position
  bytes : receivedBytes history = received.data.toList
  readied : BeginsIdle history

theorem Reached.length (hreached : Reached position received history) :
    (receivedBytes history).length = received.size := by
  rw [hreached.bytes]
  rfl

theorem Reached.extend {block length : UInt16} {data : ByteArray}
    (hreached : Reached position received history) :
    Reached (position + 1) (received ++ data)
      (history ++ [.receive .upload block length (.ok data)]) where
  count := by
    rw [uploads_append, hreached.count]
    rfl
  bytes := by
    rw [receivedBytes_append, hreached.bytes, ByteArray.data_append, Array.toList_append]
    simp [receivedBytes, Exchange.received]
  readied := hreached.readied.append _

theorem Reached.asks (positive : 0 < chunk) (hchunk : chunk < UInt16.size)
    (hreached : Reached position received history) (hmore : received.size < reach limit bound) :
    AsksForNext chunk limit history (UInt16.ofNat position)
      (UInt16.ofNat (nextLength chunk limit received.size)) where
  numbered := by
    rw [hreached.count]
    exact UInt16.toNat_ofNat'
  sized := by
    rw [toNat_nextLength hchunk, hreached.length]
    rfl
  positive := by
    rw [toNat_nextLength hchunk]
    exact nextLength_pos positive hmore
  readied := hreached.readied

theorem Cancelling.continues {result : Except Fault StatusReply}
    (hcancelling : session.Cancelling before deeds result after)
    (hwithin : ∀ most ∈ limit, (receivedBytes history).length ≤ most) :
    Continues chunk limit history (exchanges deeds) := by
  have hsecond (count : Nat) : ∀ most ∈ limit,
      (receivedBytes (history ++ [.out .abort 0 .empty (.ok count)])).length ≤ most := by
    simpa [receivedBytes, Exchange.received] using hwithin
  cases hcancelling with
  | unsent htold => exact .cons (.of_request rfl hwithin (by simp)) continues_nil
  | unconfirmed htold hasked =>
      simp only [exchanges_cons_orderDeed, exchanges_cons_statusDeed, exchanges_nil]
      exact .cons (.of_request rfl hwithin (by simp [Exchange.failed]))
        (.cons (.of_request rfl (hsecond _) (by simp)) continues_nil)
  | ignored htold hasked hbusy =>
      simp only [exchanges_cons_orderDeed, exchanges_cons_statusDeed, exchanges_nil]
      exact .cons (.of_request rfl hwithin (by simp [Exchange.failed]))
        (.cons (.of_request rfl (hsecond _) (by simp)) continues_nil)
  | cancelled htold hasked hidle =>
      simp only [exchanges_cons_orderDeed, exchanges_cons_statusDeed, exchanges_sleeps]
      exact .cons (.of_request rfl hwithin (by simp [Exchange.failed]))
        (.cons (.of_request rfl (hsecond _) (by simp)) continues_nil)

theorem size_le_nextLength (hfits : session.pipe.Fits) (hchunk : chunk < UInt16.size)
    {block : UInt16} {data : ByteArray} {delay : Nat}
    (hasked : session.pipe.asked .upload block
      (UInt16.ofNat (nextLength chunk limit received.size)) before = (⟨.ok data, delay⟩, after)) :
    data.size ≤ nextLength chunk limit received.size := by
  have hsize := hfits.asked hasked
  rwa [toNat_nextLength hchunk] at hsize

theorem within_block {data : ByteArray} (hwithin : ∀ most ∈ limit, received.size ≤ most)
    (hsize : data.size ≤ nextLength chunk limit received.size) :
    ∀ most ∈ limit, (received ++ data).size ≤ most := by
  rintro most hmost
  obtain rfl : limit = some most := hmost
  have hreceived := hwithin most rfl
  simp only [nextLength] at hsize
  rw [ByteArray.size_append]
  omega

theorem Reached.within (hreached : Reached position received history)
    (hwithin : ∀ most ∈ limit, received.size ≤ most) :
    ∀ most ∈ limit, (receivedBytes history).length ≤ most := by
  rwa [hreached.length]

theorem Reading.continues {result : Except Fault ByteArray} (positive : 0 < chunk)
    (hchunk : chunk < UInt16.size) (hfits : session.pipe.Fits)
    (hreading : session.Reading chunk limit bound position received before deeds result after)
    (hreached : Reached position received history)
    (hwithin : ∀ most ∈ limit, received.size ≤ most) :
    Continues chunk limit history (exchanges deeds) := by
  induction hreading generalizing history with
  | @failed _ received _ _ error _ hmore hasked =>
      rw [exchanges_cons_blockDeed]
      refine .cons ⟨?_, ?_, by simp, by simp⟩ continues_nil
      · rintro _ _ _ ⟨⟩
        exact hreached.asks positive hchunk hmore
      · simpa [receivedBytes, Exchange.received] using hreached.within hwithin
  | @short _ received _ _ data _ hmore hasked hshort =>
      rw [exchanges_cons_blockDeed, exchanges_cons_uploaded]
      refine .cons ⟨?_, ?_, by simp, by simp⟩ continues_nil
      · rintro _ _ _ ⟨⟩
        exact hreached.asks positive hchunk hmore
      · exact hreached.extend.within
          (within_block hwithin (size_le_nextLength hfits hchunk hasked))
  | @full _ received _ _ _ data _ _ _ hmore hasked hfull hrest ih =>
      have hnext := within_block hwithin (size_le_nextLength hfits hchunk hasked)
      rw [exchanges_cons_blockDeed, exchanges_cons_uploaded]
      refine .cons ⟨?_, ?_, ?_, by simp [Exchange.failed]⟩ (ih hreached.extend hnext)
      · rintro _ _ _ ⟨⟩
        exact hreached.asks positive hchunk hmore
      · exact hreached.extend.within hnext
      · rintro _ _ _ ⟨⟩ hshort
        rw [toNat_nextLength hchunk] at hshort
        exact absurd hshort hfull
  | stuck hdone hcancelling => exact hcancelling.continues (hreached.within hwithin)
  | complete hlimit hdone hcancelling => exact hcancelling.continues (hreached.within hwithin)
  | tooLarge hlimit hdone hcancelling => exact hcancelling.continues (hreached.within hwithin)

/-! ## How an upload ends -/

def EndsShort (transfers : List Exchange) : Prop :=
  ∃ earlier block length data,
    transfers = earlier ++ [.receive .upload block length (.ok data)] ∧ data.size < length.toNat

def EndsIdle (transfers : List Exchange) : Prop :=
  ∃ earlier count bytes, transfers = earlier ++
    [.out .abort 0 .empty (.ok count), .receive .getStatus 0 6 (.ok bytes)] ∧
    (reportOf bytes).2 = .dfuIdle

theorem EndsShort.append {transfers : List Exchange} (hends : EndsShort transfers)
    (first : List Exchange) : EndsShort (first ++ transfers) := by
  obtain ⟨earlier, block, length, data, rfl, hshort⟩ := hends
  exact ⟨first ++ earlier, block, length, data, (List.append_assoc ..).symm, hshort⟩

theorem EndsIdle.append {transfers : List Exchange} (hends : EndsIdle transfers)
    (first : List Exchange) : EndsIdle (first ++ transfers) := by
  obtain ⟨earlier, count, bytes, rfl, hidle⟩ := hends
  exact ⟨first ++ earlier, count, bytes, (List.append_assoc ..).symm, hidle⟩

theorem EndsShort.not_endsIdle {transfers : List Exchange} (hends : EndsShort transfers) :
    ¬ EndsIdle transfers := by
  rintro ⟨earlier', count, bytes, hsame, -⟩
  obtain ⟨earlier, block, length, data, rfl, -⟩ := hends
  have hlast := congrArg List.getLast? hsame
  simp at hlast

theorem Cancelling.exchanges_of_ok {reply : StatusReply}
    (hcancelling : session.Cancelling before deeds (.ok reply) after) :
    ∃ count bytes, exchanges deeds =
        [.out .abort 0 .empty (.ok count), .receive .getStatus 0 6 (.ok bytes)] ∧
      (reportOf bytes).2 = .dfuIdle := by
  cases hcancelling with
  | cancelled htold hasked hidle =>
      rw [session.replyTo_state] at hidle
      simp only [exchanges_cons_orderDeed, exchanges_cons_statusDeed, exchanges_sleeps]
      exact ⟨_, _, rfl, hidle⟩

/-- An upload that succeeds ends with a short block, unless the limit has been reached. -/
theorem Reading.ends {data : ByteArray} (hchunk : chunk < UInt16.size) (hfits : session.pipe.Fits)
    (hreading : session.Reading chunk limit bound position received before deeds (.ok data) after)
    (hwithin : ∀ most ∈ limit, received.size ≤ most) :
    data.data.toList = received.data.toList ++ receivedBytes (exchanges deeds) ∧
      (∀ most ∈ limit, data.size ≤ most) ∧
      (EndsShort (exchanges deeds) ∧ limit ≠ some data.size ∨
        EndsIdle (exchanges deeds) ∧ limit = some data.size) := by
  generalize hresult : Except.ok data = result at hreading
  induction hreading with
  | failed => simp at hresult
  | @short _ received _ _ block _ hmore hasked hshort =>
      cases hresult
      rw [exchanges_cons_blockDeed, exchanges_cons_uploaded]
      have hnext := within_block hwithin (size_le_nextLength hfits hchunk hasked)
      refine ⟨by simp [receivedBytes, Exchange.received], hnext,
        .inl ⟨⟨[], _, _, block, rfl, ?_⟩, ?_⟩⟩
      · rwa [toNat_nextLength hchunk]
      · rintro rfl
        simp only [nextLength, ByteArray.size_append] at hshort
        omega
  | @full _ received _ _ _ block _ _ _ hmore hasked hfull hrest ih =>
      have hnext := within_block hwithin (size_le_nextLength hfits hchunk hasked)
      obtain ⟨hdata, hsize, hends⟩ := ih hnext hresult
      rw [exchanges_cons_blockDeed, exchanges_cons_uploaded, ← List.singleton_append]
      refine ⟨?_, hsize, ?_⟩
      · rw [hdata, receivedBytes_append]
        simp [receivedBytes, Exchange.received]
      · exact hends.imp (.imp_left fun hshort => hshort.append _)
          (.imp_left fun hidle => hidle.append _)
  | stuck => simp at hresult
  | @complete _ received _ _ _ _ hlimit hdone hcancelling =>
      cases hresult
      obtain ⟨most, rfl⟩ := Option.isSome_iff_exists.mp hlimit
      obtain ⟨count, bytes, hdeeds, hidle⟩ := hcancelling.exchanges_of_ok
      have hreceived := hwithin most rfl
      simp only [reach, Option.getD_some] at hdone
      rw [hdeeds]
      refine ⟨by simp [receivedBytes, Exchange.received], hwithin,
        .inr ⟨⟨[], count, bytes, rfl, hidle⟩, ?_⟩⟩
      congr 1
      omega
  | tooLarge => simp at hresult

theorem reached_start (count : Nat) {bytes : ByteArray} (hidle : (reportOf bytes).2 = .dfuIdle) :
    Reached 0 .empty [.out .abort 0 .empty (.ok count), .receive .getStatus 0 6 (.ok bytes)] where
  count := rfl
  bytes := rfl
  readied := ⟨count, bytes, [], rfl, hidle⟩

theorem Fetching.continues {result : Except Fault ByteArray} (positive : 0 < chunk)
    (hchunk : chunk < UInt16.size) (hfits : session.pipe.Fits)
    (hfetching : session.Fetching chunk limit bound before deeds result after) :
    Continues chunk limit [] (exchanges deeds) := by
  have hnone : ∀ most ∈ limit, (receivedBytes []).length ≤ most := fun _ _ => Nat.zero_le _
  cases hfetching with
  | unready hcancelling => exact hcancelling.continues hnone
  | ready hcancelling hreading =>
      obtain ⟨count, bytes, hdeeds, hidle⟩ := hcancelling.exchanges_of_ok
      rw [exchanges_append, hdeeds]
      refine .cons (.of_request rfl hnone (by simp [Exchange.failed]))
        (.cons (.of_request rfl hnone (by simp [Exchange.failed])) ?_)
      exact hreading.continues positive hchunk hfits (reached_start count hidle)
        fun _ _ => Nat.zero_le _

theorem Fetching.ends {data : ByteArray} (hchunk : chunk < UInt16.size) (hfits : session.pipe.Fits)
    (hfetching : session.Fetching chunk limit bound before deeds (.ok data) after) :
    data.data.toList = receivedBytes (exchanges deeds) ∧
      (∀ most ∈ limit, data.size ≤ most) ∧
      (EndsShort (exchanges deeds) ∧ limit ≠ some data.size ∨
        EndsIdle (exchanges deeds) ∧ limit = some data.size) := by
  cases hfetching with
  | ready hcancelling hreading =>
      obtain ⟨count, bytes, hdeeds, -⟩ := hcancelling.exchanges_of_ok
      obtain ⟨hdata, hsize, hends⟩ := hreading.ends hchunk hfits fun _ _ => Nat.zero_le _
      rw [exchanges_append, receivedBytes_append, hdeeds]
      refine ⟨hdata, hsize, ?_⟩
      exact hends.imp (.imp_left fun hshort => hshort.append _)
        (.imp_left fun hidle => hidle.append _)

/-- With a device whose answers fit, each transfer of an upload is in its place.  If the upload
succeeds, its result are the bytes of all the blocks in their order, and it ends with a short block
or, exactly if the limit has been reached, with a device that gave up the transfer. -/
theorem uploadWithin_stays_in_order (session : Session ω) (hfits : session.pipe.Fits)
    (bound : Nat) (chunk : UInt16) (limit : Option Nat) (before : Moment ω) :
    ∃ deeds result after,
      (session.uploadWithin bound chunk limit).Performs before deeds result after ∧
      (∀ earlier transfer later, exchanges deeds = earlier ++ transfer :: later →
        InPlace chunk.toNat limit earlier transfer later) ∧
      ∀ data, result = .ok data →
        data.data.toList = receivedBytes (exchanges deeds) ∧
        (∀ most ∈ limit, data.size ≤ most) ∧
        (EndsShort (exchanges deeds) ∨ EndsIdle (exchanges deeds)) ∧
        (EndsIdle (exchanges deeds) ↔ limit = some data.size) := by
  by_cases positive : 0 < chunk.toNat
  · obtain ⟨deeds, result, after, hfetching, hrun⟩ :=
      session.uploadWithin_performs bound positive limit before
    have hchunk : chunk.toNat < UInt16.size := chunk.toNat_lt
    have hcontinues := hfetching.continues positive hchunk hfits
    refine ⟨deeds, result, after, hrun, hcontinues, ?_⟩
    rintro data rfl
    obtain ⟨hdata, hsize, hends⟩ := hfetching.ends hchunk hfits
    refine ⟨hdata, hsize, hends.imp And.left And.left, ?_⟩
    rcases hends with ⟨hshort, hlimit⟩ | ⟨hidle, hlimit⟩
    · exact iff_of_false hshort.not_endsIdle hlimit
    · exact iff_of_true hidle hlimit
  · refine ⟨_, _, _, session.uploadWithin_refused bound positive limit before, ?_, by simp⟩
    simp

end Session

/-- A scripted device cuts its answers to what was asked for. -/
theorem Script.pipe_fits (route : Route) : (Script.pipe route).Fits := by
  intro request value length script bytes delay after hanswer
  simp only [pipe, answer] at hanswer
  split at hanswer
  · simp at hanswer
  · next element rest hanswers =>
      cases hresult : element.result with
      | error error => simp [hresult, Except.map] at hanswer
      | ok data =>
          simp only [hresult, Except.map, Prod.mk.injEq, Reaction.mk.injEq,
            Except.ok.injEq] at hanswer
          obtain ⟨⟨rfl, -⟩, -⟩ := hanswer
          split
          · assumption
          · rw [ByteArray.size_extract]
            omega

/-- The limit of six bytes is reached with the second block, which is shorter than the first one but
not shorter than asked for. -/
theorem Session.uploadWithin_stays_in_order_bench :
    Script.session.pipe.Fits ∧ ∃ deeds result after,
      (Script.session.uploadWithin 64 4 (some 6)).Performs
        ⟨⟨[⟨.ok ⟨#[0, 0, 0, 0, 2, 0]⟩, 0, 0⟩, ⟨.ok ⟨#[1, 2, 3, 4]⟩, 0, 0⟩, ⟨.ok ⟨#[5, 6]⟩, 0, 0⟩,
          ⟨.ok ⟨#[0, 0, 0, 0, 2, 0]⟩, 0, 0⟩], [], []⟩, 0⟩ deeds result after ∧
      (∀ earlier transfer later, exchanges deeds = earlier ++ transfer :: later →
        InPlace 4 (some 6) earlier transfer later) ∧
      ∀ data, result = .ok data →
        data.data.toList = receivedBytes (exchanges deeds) ∧
        (∀ most ∈ some 6, data.size ≤ most) ∧
        (EndsShort (exchanges deeds) ∨ EndsIdle (exchanges deeds)) ∧
        (EndsIdle (exchanges deeds) ↔ some 6 = some data.size) := by
  have hfits : Script.session.pipe.Fits := Script.pipe_fits (.direct 0)
  obtain ⟨deeds, result, after, hrun, hplace, hresult⟩ :=
    Script.session.uploadWithin_stays_in_order hfits 64 4 (some 6) _
  exact ⟨hfits, deeds, result, after, hrun, hplace, hresult⟩

end FirmwareUpgrade
