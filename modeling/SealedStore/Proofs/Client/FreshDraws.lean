import Mathlib.Data.List.Nodup
import SealedStore.Proofs.Client.Workload

/-!
# Every draw is used once

Read `draws_used_once` first: in every run of calls that put objects and wrap keys, each draw takes
the next place of the random source, so no place is given out twice; each content key, each IV of a
body and each IV that a local provider wraps under is a draw that was taken by that call for that
purpose; and the IV that an envelope in the store tells is the one that its body was sealed under.
So if draws of one length differ, no IV and no content key comes up again.

It is carried by `Workload.Inv`, which holds at every moment of every run:

* `facility_eq` and `places_eq`: the places of the draws so far are those that the facility has
  given out, in their order;
* `accounted`: what a call has in hands was made from its own draws;
* `stored`: what a run has put into the store is what one of its calls has made.
-/

namespace SealedStore

/-! ## Bytes that were drawn -/

/-- The bytes are a draw that a call took for a purpose. -/
def Drawn (source : RandomSource) (draws : List Draw) (call : Nat) (purpose : Purpose)
    (bytes : Bytes) : Prop :=
  ∃ draw ∈ draws, draw.call = call ∧ draw.purpose = purpose ∧ draw.bytes source = bytes

/-- A call has wrapped a content key under a keyring. If this was done in Galois counter mode, it
was under an IV that the call has drawn. -/
def GcmWrapped (source : RandomSource) (draws : List Draw) (call : Nat) (keyring : Keyring)
    (contentKey wrapped : Bytes) : Prop :=
  ∀ keys : LocalKeys, keyring = .held keys → keys.algorithm = .aesGcm →
    ∃ iv, Drawn source draws call .wrapIv iv ∧
      ∀ opened : Facility, opened.isOpen → keys.wrapGcm contentKey iv opened = .ok wrapped

section Drawn

variable {source : RandomSource} {draws : List Draw} {call : Nat} {purpose : Purpose}
  {bytes contentKey wrapped : Bytes} {keyring : Keyring} {facility next : Facility}

theorem Drawn.append (hdrawn : Drawn source draws call purpose bytes) (more : List Draw) :
    Drawn source (draws ++ more) call purpose bytes := by
  obtain ⟨draw, hdraw, hsame⟩ := hdrawn
  exact ⟨draw, List.mem_append_left more hdraw, hsame⟩

/-- After a draw the bytes at its place are drawn. -/
theorem drawn_between (draws : List Draw) (call : Nat) (purpose : Purpose) (facility : Facility) :
    Drawn facility.source
      (draws ++ Draw.between call purpose facility (facility.afterDraws 1)) call purpose
      (facility.source.bytes facility.drawn purpose.length) := by
  refine ⟨⟨call, purpose, facility.drawn⟩, List.mem_append_right _ ?_, rfl, rfl, rfl⟩
  rw [Draw.between_afterDraws]
  exact List.mem_map_of_mem (List.mem_range'_1.mpr ⟨Nat.le_refl _, Nat.lt_succ_self _⟩)

theorem GcmWrapped.append (hwrapped : GcmWrapped source draws call keyring contentKey wrapped)
    (more : List Draw) : GcmWrapped source (draws ++ more) call keyring contentKey wrapped := by
  intro keys hkeyring halgorithm
  obtain ⟨iv, hdrawn, hwrap⟩ := hwrapped keys hkeyring halgorithm
  exact ⟨iv, hdrawn.append more, hwrap⟩

/-- A provider that wraps in Galois counter mode takes a draw for it. -/
theorem gcmWrapped_of_wrap {description : Description} {result : WrappedKey}
    (hwrap : keyring.provider.wrap contentKey description facility = (.ok result, next))
    (draws : List Draw) (call : Nat) :
    GcmWrapped facility.source (draws ++ Draw.between call .wrapIv facility next) call keyring
      contentKey result.bytes := by
  rintro keys rfl halgorithm
  obtain ⟨bytes, hbytes, rfl⟩ := LocalKeys.wrap_eq_ok_iff.mp hwrap
  rw [LocalKeys.wrapBytes_eq_ok_iff, halgorithm] at hbytes
  obtain ⟨iv, hdraw, hgcm⟩ := hbytes
  obtain ⟨-, rfl, rfl⟩ := Facility.draw_eq_ok_iff.mp hdraw
  exact ⟨_, drawn_between draws call .wrapIv facility,
    fun opened hopen ↦ LocalKeys.wrapGcm_of_isOpen hopen hgcm⟩

end Drawn

/-! ## What a call has in hands -/

/-- What a put has made, from draws of its own: the content key, the IV, and a body and material
under these. -/
structure Made.FromDraws (source : RandomSource) (draws : List Draw) (call : Nat) (writer : Writer)
    (plaintext : Bytes) (description : Description) (made : Made) : Prop where
  contentKey_drawn : Drawn source draws call .contentKey made.contentKey
  iv_drawn : Drawn source draws call (.contentIv writer.scheme) made.iv
  makes : ∃ before after : Facility, writer.client.Makes plaintext description made.contentKey
    made.iv before after made.body made.material
  gcmWrapped : GcmWrapped source draws call writer.keyring made.contentKey
    made.material.wrappedKey

/-- What a call has in hands at its phase was made from draws of its own. -/
inductive Course.FromDraws (source : RandomSource) (draws : List Draw) (call : Nat) : Course → Prop
  | waiting (task : Task) : FromDraws source draws call ⟨task, .waiting⟩
  | failed (task : Task) (error : ClientError) : FromDraws source draws call ⟨task, .failed error⟩
  | keyed {writer : Writer} {key : String} {plaintext : Bytes} {description : Description}
      {contentKey : Bytes} (hkey : Drawn source draws call .contentKey contentKey) :
      FromDraws source draws call ⟨.put writer key plaintext description, .keyed contentKey⟩
  | sealed {writer : Writer} {key : String} {plaintext : Bytes} {description : Description}
      {contentKey iv body : Bytes} (hkey : Drawn source draws call .contentKey contentKey)
      (hiv : Drawn source draws call (.contentIv writer.scheme) iv)
      (hseal : ∀ opened : Facility, opened.isOpen →
        Client.sealBody opened writer.scheme contentKey iv plaintext = .ok body) :
      FromDraws source draws call ⟨.put writer key plaintext description, .sealed contentKey iv body⟩
  | writing {writer : Writer} {key : String} {plaintext : Bytes} {description : Description}
      {made : Made} {left : List PutRequest}
      (hmade : made.FromDraws source draws call writer plaintext description)
      (hleft : ∀ request ∈ left, request ∈ writer.client.requests key made.body made.material) :
      FromDraws source draws call ⟨.put writer key plaintext description, .writing made left⟩
  | returned {writer : Writer} {key : String} {plaintext : Bytes} {description : Description}
      {made : Made} (hmade : made.FromDraws source draws call writer plaintext description)
      (answer : Except StoreError Unit) :
      FromDraws source draws call ⟨.put writer key plaintext description, .returned made answer⟩
  | wrapped {keyring : Keyring} {contentKey : Bytes} {description : Description}
      {result : WrappedKey}
      (hwrapped : GcmWrapped source draws call keyring contentKey result.bytes) :
      FromDraws source draws call ⟨.wrap keyring contentKey description, .wrapped result⟩

section FromDraws

variable {source : RandomSource} {draws : List Draw} {call : Nat}

theorem Made.FromDraws.append {writer : Writer} {plaintext : Bytes} {description : Description}
    {made : Made} (hmade : made.FromDraws source draws call writer plaintext description)
    (more : List Draw) :
    made.FromDraws source (draws ++ more) call writer plaintext description where
  contentKey_drawn := hmade.contentKey_drawn.append more
  iv_drawn := hmade.iv_drawn.append more
  makes := hmade.makes
  gcmWrapped := hmade.gcmWrapped.append more

/-- Draws that come later change nothing about it. -/
theorem Course.FromDraws.append {course : Course} (hcourse : course.FromDraws source draws call)
    (more : List Draw) : course.FromDraws source (draws ++ more) call := by
  cases hcourse with
  | waiting task => exact .waiting task
  | failed task error => exact .failed task error
  | keyed hkey => exact .keyed (hkey.append more)
  | sealed hkey hiv hseal => exact .sealed (hkey.append more) (hiv.append more) hseal
  | writing hmade hleft => exact .writing (hmade.append more) hleft
  | returned hmade answer => exact .returned (hmade.append more) answer
  | wrapped hwrapped => exact .wrapped (hwrapped.append more)

end FromDraws

/-! ## The invariant -/

namespace Workload

variable {σ : Type}

/-- A call to put an object has got as far as to have made all it is going to write. -/
def HasMade (courses : List Course) (call : Nat) (writer : Writer) (key : String)
    (plaintext : Bytes) (made : Made) : Prop :=
  ∃ description phase,
    courses[call]? = some ⟨.put writer key plaintext description, phase⟩ ∧
    phase.made? = some made

/-- A call has wrapped a content key in Galois counter mode, for itself or for another. -/
def HasGcmWrapped (courses : List Course) (call : Nat) (keys : LocalKeys)
    (contentKey wrapped : Bytes) : Prop :=
  keys.algorithm = .aesGcm ∧ ∃ course, courses[call]? = some course ∧
    course.wrapped? = some (.held keys, contentKey, wrapped)

/-- An object that is to be under a key is one that some call has made. -/
def Written (courses : List Course) (key : String) (object : StoredObject) : Prop :=
  ∃ call writer target plaintext made, HasMade courses call writer target plaintext made ∧
    ∃ request ∈ writer.client.requests target made.body made.material,
      request.key = key ∧ request.object = object

/-- What holds at every moment. -/
structure Inv (store : ObjectStore σ) (facility : Facility) (initial : σ) (tasks : List Task)
    (workload : Workload σ) : Prop where
  facility_eq : workload.facility = facility.afterDraws workload.draws.length
  places_eq : workload.draws.map Draw.place = List.range' facility.drawn workload.draws.length
  tasks_eq : workload.courses.map Course.task = tasks
  accounted : ∀ (call : Nat) (course : Course), workload.courses[call]? = some course →
    course.FromDraws facility.source workload.draws call
  stored : ∀ key object, store.get workload.state key = .ok object →
    store.get initial key = .ok object ∨ Written workload.courses key object

section Inv

variable {store : ObjectStore σ} {facility : Facility} {initial : σ} {tasks : List Task}
  {workload : Workload σ} {call : Nat} {task : Task} {before after : Phase}

theorem inv_start (store : ObjectStore σ) (facility : Facility) (initial : σ)
    (tasks : List Task) :
    Inv store facility initial tasks (start facility initial tasks) where
  facility_eq := rfl
  places_eq := rfl
  tasks_eq := by
    show (tasks.map fun task ↦ Course.mk task .waiting).map Course.task = tasks
    rw [List.map_map]
    exact List.map_id tasks
  accounted call course hcourse := by
    obtain ⟨task, -, rfl⟩ := List.mem_map.mp (List.mem_of_getElem? hcourse)
    exact .waiting task
  stored key object hobject := .inl hobject

/-- What a call has made it keeps. -/
theorem HasMade.set {courses : List Course} {other : Nat} {writer : Writer} {key : String}
    {plaintext : Bytes} {made : Made} (hmade : HasMade courses other writer key plaintext made)
    (hcourse : courses[call]? = some ⟨task, before⟩)
    (hkept : ∀ made, before.made? = some made → after.made? = some made) :
    HasMade (courses.set call ⟨task, after⟩) other writer key plaintext made := by
  obtain ⟨description, phase, hfound, hphase⟩ := hmade
  by_cases hsame : call = other
  · subst hsame
    rw [hcourse] at hfound
    cases hfound
    refine ⟨description, after, ?_, hkept made hphase⟩
    rw [List.getElem?_set_self (List.getElem?_eq_some_iff.mp hcourse).1]
  · refine ⟨description, phase, ?_, hphase⟩
    rw [List.getElem?_set_ne hsame, hfound]

/-- A call that goes on with draws of its own keeps the invariant, provided it keeps what it has
made, and what it leaves in the store it has made. -/
theorem Inv.advance (hinv : Inv store facility initial tasks workload)
    (hcourse : workload.courses[call]? = some ⟨task, before⟩) {next : Facility} {state : σ}
    {more : List Draw} (hnext : next = workload.facility.afterDraws more.length)
    (hplaces : more.map Draw.place = List.range' workload.facility.drawn more.length)
    (hafter : Course.FromDraws facility.source (workload.draws ++ more) call ⟨task, after⟩)
    (hmade : ∀ made, before.made? = some made → after.made? = some made)
    (hstored : ∀ key object, store.get state key = .ok object →
      store.get workload.state key = .ok object ∨
        Written (workload.courses.set call ⟨task, after⟩) key object) :
    Inv store facility initial tasks
      ⟨next, state, workload.courses.set call ⟨task, after⟩, workload.draws ++ more⟩ where
  facility_eq := by
    rw [hnext, hinv.facility_eq, Facility.afterDraws_afterDraws, List.length_append]
  places_eq := by
    rw [List.map_append, hinv.places_eq, hplaces, hinv.facility_eq, Facility.drawn_afterDraws,
      List.range'_append_1, List.length_append]
  tasks_eq := (map_set_of_getElem? Course.task hcourse (by rfl)).trans hinv.tasks_eq
  accounted other course hfound := by
    rcases getElem?_set_cases hfound with ⟨rfl, rfl⟩ | ⟨-, hother⟩
    · exact hafter
    · exact (hinv.accounted other course hother).append more
  stored key object hobject := by
    rcases hstored key object hobject with hbefore | hwritten
    · rcases hinv.stored key object hbefore with hinitial | hwritten
      · exact .inl hinitial
      · obtain ⟨other, writer, target, plaintext, made, hother, hrequest⟩ := hwritten
        exact .inr ⟨other, writer, target, plaintext, made, hother.set hcourse hmade, hrequest⟩
    · exact .inr hwritten

/-- An action keeps the invariant that does nothing but take draws, and after which the call has
nothing in hands but what was made from them. -/
theorem Inv.act {α : Type} (hinv : Inv store facility initial tasks workload)
    (hcourse : workload.courses[call]? = some ⟨task, before⟩) {purpose : Purpose}
    {action : Action ClientError α} {onward : α → Phase} (honly : action.OnlyDraws)
    (hbefore : before.made? = none)
    (honward : ∀ value next, action workload.facility = (.ok value, next) →
      Course.FromDraws facility.source
        (workload.draws ++ Draw.between call purpose workload.facility next) call
        ⟨task, onward value⟩) :
    Inv store facility initial tasks (workload.act call task purpose action onward) := by
  obtain ⟨count, hcount⟩ := honly workload.facility
  have hlength : (Draw.between call purpose workload.facility (action workload.facility).2).length =
      count := by
    rw [hcount, Draw.between_afterDraws, List.length_map, List.length_range']
  refine hinv.advance hcourse (by rw [hlength, hcount]) ?_ ?_ ?_ fun key object hobject ↦
    .inl hobject
  · rw [hlength, hcount, Draw.between_afterDraws, List.map_map]
    exact List.map_id _
  · rcases haction : action workload.facility with ⟨error | value, next⟩
    · exact .failed task error
    · exact honward value next haction
  · intro made hmade
    rw [hbefore] at hmade
    cases hmade

/-- So does a call that goes on without a draw. -/
theorem Inv.goOn (hinv : Inv store facility initial tasks workload)
    (hcourse : workload.courses[call]? = some ⟨task, before⟩) {state : σ}
    (hafter : Course.FromDraws facility.source workload.draws call ⟨task, after⟩)
    (hmade : ∀ made, before.made? = some made → after.made? = some made)
    (hstored : ∀ key object, store.get state key = .ok object →
      store.get workload.state key = .ok object ∨
        Written (workload.courses.set call ⟨task, after⟩) key object) :
    Inv store facility initial tasks
      { workload with state := state, courses := workload.courses.set call ⟨task, after⟩ } := by
  have hkept : Inv store facility initial tasks
      ⟨workload.facility, state, workload.courses.set call ⟨task, after⟩, workload.draws ++ []⟩ :=
    hinv.advance hcourse rfl rfl (hafter.append []) hmade hstored
  rwa [List.append_nil] at hkept

/-- So does a put whose next request is answered. -/
theorem Inv.write (hinv : Inv store facility initial tasks workload)
    (hreplacing : store.Replacing) {writer : Writer} {key : String} {plaintext : Bytes}
    {description : Description} {made : Made} {request : PutRequest} {rest : List PutRequest}
    {written : σ}
    (hcourse : workload.courses[call]? =
      some ⟨.put writer key plaintext description, .writing made (request :: rest)⟩)
    (hmade : made.FromDraws facility.source workload.draws call writer plaintext description)
    (hleft : ∀ other ∈ request :: rest,
      other ∈ writer.client.requests key made.body made.material)
    (hput : store.put workload.state request = .ok written) :
    Inv store facility initial tasks
      { workload with
        state := written
        courses := workload.courses.set call
          ⟨.put writer key plaintext description, .writing made rest⟩ } := by
  obtain ⟨hsame, hother⟩ := hreplacing workload.state request written hput
  refine hinv.goOn hcourse (.writing hmade fun other hmem ↦ hleft other (.tail _ hmem))
    (fun _ hsome ↦ hsome) fun target object hobject ↦ ?_
  by_cases htarget : target = request.key
  · -- What is under the key of the request now is what the request is about.
    subst htarget
    rw [hsame] at hobject
    cases hobject
    refine .inr ⟨call, writer, key, plaintext, made,
      ⟨description, .writing made rest, ?_, rfl⟩, request, hleft request (.head _), rfl, rfl⟩
    rw [List.getElem?_set_self (List.getElem?_eq_some_iff.mp hcourse).1]
  · rw [hother target htarget] at hobject
    exact .inl hobject

theorem Inv.source_eq (hinv : Inv store facility initial tasks workload) :
    workload.facility.source = facility.source := by
  rw [hinv.facility_eq, Facility.source_afterDraws]

/-- Every step of every call keeps the invariant. -/
theorem Inv.step (hinv : Inv store facility initial tasks workload) (hreplacing : store.Replacing)
    (call : Nat) : Inv store facility initial tasks (workload.step store call) := by
  rcases hcourse : workload.courses[call]? with _ | ⟨task, phase⟩
  · rw [step_of_none hcourse]
    exact hinv
  have hsource := hinv.source_eq
  cases hinv.accounted call _ hcourse with
  | waiting =>
      cases task with
      | put writer key plaintext description =>
          rw [step_of_waiting hcourse]
          refine hinv.act hcourse Client.onlyDraws_drawKey rfl fun contentKey next haction ↦ ?_
          obtain ⟨-, rfl, rfl⟩ := Client.drawKey_eq_ok_iff.mp haction
          exact .keyed (hsource ▸ drawn_between _ _ .contentKey _)
      | wrap keyring contentKey description =>
          rw [step_of_wrap hcourse]
          refine hinv.act hcourse ((keyring.onlyDraws_wrap _ _).mapError _) rfl
            fun result next haction ↦ .wrapped ?_
          exact hsource ▸ gcmWrapped_of_wrap (Action.mapError_eq_ok_iff.mp haction) _ _
  | @keyed writer key plaintext description contentKey hkey =>
      rw [step_of_keyed hcourse]
      refine hinv.act hcourse Client.onlyDraws_sealWithDraw rfl fun drawn next haction ↦ ?_
      obtain ⟨-, hiv, rfl, hseal⟩ := Client.sealWithDraw_eq_ok_iff.mp haction
      refine .sealed (hkey.append _) ?_ fun opened hopened ↦
        Client.sealBody_eq_ok_of_isOpen hopened hseal
      rw [hiv]
      exact hsource ▸ drawn_between _ _ (.contentIv writer.scheme) _
  | @sealed writer key plaintext description contentKey iv body hkey hiv hseal =>
      rw [step_of_sealed hcourse]
      refine hinv.act hcourse (Client.onlyDraws_wrapAndBuild writer) rfl
        fun material next haction ↦ .writing ?_ fun request hrequest ↦ hrequest
      obtain ⟨wrapped, hwrap, hbuild⟩ := Client.wrapAndBuild_eq_ok_iff.mp haction
      have hmakes := Client.makes_of_build hseal hwrap hbuild
      exact ⟨hkey.append _, hiv.append _, ⟨_, _, hmakes⟩,
        hsource ▸ gcmWrapped_of_wrap hmakes.wrap_eq _ _⟩
  | @writing writer key plaintext description made left hmade hleft =>
      cases left with
      | nil =>
          rw [step_of_written hcourse]
          exact hinv.goOn hcourse (.returned hmade (.ok ())) (fun _ hsome ↦ hsome)
            fun _ _ hobject ↦ .inl hobject
      | cons request rest =>
          cases hput : store.put workload.state request with
          | error reason =>
              rw [step_of_put_error hcourse hput]
              exact hinv.goOn hcourse (.returned hmade (.error reason)) (fun _ hsome ↦ hsome)
                fun _ _ hobject ↦ .inl hobject
          | ok written =>
              rw [step_of_put_ok hcourse hput]
              exact hinv.write hreplacing hcourse hmade hleft hput
  | returned | wrapped | failed =>
      rw [step_of_ended hcourse (by simp [Phase.putAnswer?, Phase.wrapAnswer?])]
      exact hinv

/-- So does every run. -/
theorem Inv.run (hinv : Inv store facility initial tasks workload) (hreplacing : store.Replacing)
    (schedule : List Nat) :
    Inv store facility initial tasks (workload.run store schedule) := by
  induction schedule generalizing workload with
  | nil => exact hinv
  | cons call rest ih => exact ih (hinv.step hreplacing call)

theorem inv_run (hreplacing : store.Replacing) (facility : Facility) (initial : σ)
    (tasks : List Task) (schedule : List Nat) :
    Inv store facility initial tasks ((start facility initial tasks).run store schedule) :=
  (inv_start store facility initial tasks).run hreplacing schedule

/-! ## What follows from it -/

/-- Two draws at the same place are the same draw. -/
theorem Inv.eq_of_place (hinv : Inv store facility initial tasks workload) {left right : Draw}
    (hleft : left ∈ workload.draws) (hright : right ∈ workload.draws)
    (hplace : left.place = right.place) : left = right := by
  have hnodup : (workload.draws.map Draw.place).Nodup := by
    rw [hinv.places_eq]
    exact List.nodup_range'
  exact List.inj_on_of_nodup_map hnodup hleft hright hplace

/-- The draws that were given out differ wherever they are equally long. This is asked of the draws
of a run and not of the whole source: there are only so many byte strings of one length. -/
def DrawsDiffer (source : RandomSource) (draws : List Draw) : Prop :=
  ∀ left ∈ draws, ∀ right ∈ draws, left.place ≠ right.place →
    left.purpose.length = right.purpose.length → left.bytes source ≠ right.bytes source

/-- If the draws differ, so does what two calls have drawn. -/
theorem Inv.drawn_ne (hinv : Inv store facility initial tasks workload)
    (hdiffer : DrawsDiffer facility.source workload.draws) {other : Nat} (hne : call ≠ other)
    {purpose : Purpose} {left right : Bytes}
    (hleft : Drawn facility.source workload.draws call purpose left)
    (hright : Drawn facility.source workload.draws other purpose right) : left ≠ right := by
  obtain ⟨first, hfirst, rfl, rfl, rfl⟩ := hleft
  obtain ⟨second, hsecond, rfl, hpurpose, rfl⟩ := hright
  refine hdiffer first hfirst second hsecond (fun hplace ↦ hne ?_) (by rw [hpurpose])
  rw [hinv.eq_of_place hfirst hsecond hplace]

/-- What a put has made, it has made from its own draws. -/
theorem Inv.fromDraws_of_hasMade (hinv : Inv store facility initial tasks workload)
    {writer : Writer} {key : String} {plaintext : Bytes} {made : Made}
    (hmade : HasMade workload.courses call writer key plaintext made) :
    ∃ description,
      made.FromDraws facility.source workload.draws call writer plaintext description := by
  obtain ⟨description, phase, hcourse, hphase⟩ := hmade
  cases hinv.accounted call _ hcourse with
  | writing hfrom =>
      cases hphase
      exact ⟨description, hfrom⟩
  | returned hfrom =>
      cases hphase
      exact ⟨description, hfrom⟩
  | waiting | failed | keyed | sealed => cases hphase

/-- The IV at the beginning of a key that was wrapped in Galois counter mode is a draw. -/
theorem Inv.drawn_of_hasGcmWrapped (hinv : Inv store facility initial tasks workload)
    {keys : LocalKeys} {contentKey wrapped : Bytes}
    (hwrapped : HasGcmWrapped workload.courses call keys contentKey wrapped) :
    Drawn facility.source workload.draws call .wrapIv (wrapped.take LocalKeys.ivLength) ∧
      ∀ opened : Facility, opened.isOpen →
        keys.wrapGcm contentKey (wrapped.take LocalKeys.ivLength) opened = .ok wrapped := by
  obtain ⟨halgorithm, course, hcourse, hresult⟩ := hwrapped
  have hgcm : ∃ keyring, keyring = .held keys ∧
      GcmWrapped facility.source workload.draws call keyring contentKey wrapped := by
    cases hinv.accounted call course hcourse with
    | waiting task => cases task <;> cases hresult
    | failed task => cases task <;> cases hresult
    | keyed | sealed => cases hresult
    | writing hfrom =>
        obtain ⟨hkeyring, hbytes⟩ := Prod.mk.inj (Option.some.inj hresult)
        cases hbytes
        exact ⟨_, hkeyring, hfrom.gcmWrapped⟩
    | returned hfrom =>
        obtain ⟨hkeyring, hbytes⟩ := Prod.mk.inj (Option.some.inj hresult)
        cases hbytes
        exact ⟨_, hkeyring, hfrom.gcmWrapped⟩
    | wrapped hfrom =>
        cases hresult
        exact ⟨_, rfl, hfrom⟩
  obtain ⟨keyring, hkeyring, hfrom⟩ := hgcm
  obtain ⟨iv, hdrawn, hwrap⟩ := hfrom keys hkeyring halgorithm
  have hiv : wrapped.take LocalKeys.ivLength = iv :=
    LocalKeys.take_of_wrapGcm (hwrap ((Facility.closed facility.source).acquire) rfl)
  rw [hiv]
  exact ⟨hdrawn, hwrap⟩

/-- An object that a run has put into the store: the body of a put, with the material in its
metadata if it has any, or the instruction object that goes with such a body. -/
theorem Inv.cases_of_written (hinv : Inv store facility initial tasks workload) {key : String}
    {object : StoredObject} (hwritten : Written workload.courses key object) :
    ∃ call writer target plaintext made,
      HasMade workload.courses call writer target plaintext made ∧
      ((key = target ∧ object.body = made.body ∧
          (object.hasEnvelope → object.metadataMaterial = .ok made.material)) ∨
        (key = target ++ Placement.defaultSuffix ∧
          object.instructionMaterial = .ok made.material)) := by
  obtain ⟨call, writer, target, plaintext, made, hmade, request, hrequest, rfl, rfl⟩ := hwritten
  obtain ⟨description, hfrom⟩ := hinv.fromDraws_of_hasMade hmade
  obtain ⟨_, _, hmakes⟩ := hfrom.makes
  refine ⟨call, writer, target, plaintext, made, hmade, ?_⟩
  rw [Client.requests] at hrequest
  cases hplacement : writer.client.placement with
  | objectMetadata =>
      rw [hplacement] at hrequest
      cases List.mem_singleton.mp hrequest
      exact .inl ⟨rfl, rfl, fun _ ↦ PutRequest.metadataMaterial_withEnvelope _ hmakes.valid⟩
  | instructionFile =>
      rw [hplacement] at hrequest
      rcases List.mem_cons.mp hrequest with rfl | hsecond
      · refine .inl ⟨rfl, rfl, fun henvelope ↦ ?_⟩
        cases henvelope
      · cases List.mem_singleton.mp hsecond
        exact .inr ⟨rfl, PutRequest.instructionMaterial_instruction _ _ hmakes.valid⟩

/-- In every run, from any facility and any store that replaces, of any calls in any order of their
steps, up to any moment:

* The calls are those that the run began with. The draws take one place of the random source after
  the other, and nothing else has happened to the facility; no place is given out twice. What a call
  has in hands, be it only a content key, it has made from draws of its own.
* What a put has made it has made from two draws of its own, one for the content key and one for the
  IV. The body is sealed under these, and the material tells this IV.
* What a call has wrapped in Galois counter mode begins with a draw of its own, and that is the IV
  under which it is wrapped.
* Every object in the store was there in the beginning, or is what a put has made: its body, with
  its material if there is an envelope in the metadata, or the instruction object, which gives its
  material.
* If the draws differ wherever they are equally long, then the IVs of any two keys that were wrapped
  in Galois counter mode differ, under whatever master keys, and so do the content keys of any two
  bodies that puts have made, stored or not. -/
theorem draws_used_once (store : ObjectStore σ) (hreplacing : store.Replacing)
    (facility : Facility) (initial : σ) (tasks : List Task) (schedule : List Nat)
    (workload : Workload σ)
    (hrun : (start facility initial tasks).run store schedule = workload) :
    (workload.courses.map Course.task = tasks ∧
      workload.facility = facility.afterDraws workload.draws.length ∧
      workload.draws.map Draw.place = List.range' facility.drawn workload.draws.length ∧
      (∀ left ∈ workload.draws, ∀ right ∈ workload.draws, left.place = right.place →
        left = right) ∧
      ∀ (call : Nat) (course : Course), workload.courses[call]? = some course →
        course.FromDraws facility.source workload.draws call) ∧
    (∀ call writer key plaintext made,
      HasMade workload.courses call writer key plaintext made →
      Drawn facility.source workload.draws call .contentKey made.contentKey ∧
      Drawn facility.source workload.draws call (.contentIv writer.scheme) made.iv ∧
      (∀ opened : Facility, opened.isOpen →
        Client.sealBody opened writer.scheme made.contentKey made.iv plaintext = .ok made.body) ∧
      made.material.iv = made.iv) ∧
    (∀ call keys contentKey wrapped,
      HasGcmWrapped workload.courses call keys contentKey wrapped →
      Drawn facility.source workload.draws call .wrapIv (wrapped.take LocalKeys.ivLength) ∧
      ∀ opened : Facility, opened.isOpen →
        keys.wrapGcm contentKey (wrapped.take LocalKeys.ivLength) opened = .ok wrapped) ∧
    (∀ key object, store.get workload.state key = .ok object →
      store.get initial key = .ok object ∨ ∃ call writer target plaintext made,
        HasMade workload.courses call writer target plaintext made ∧
        ((key = target ∧ object.body = made.body ∧
            (object.hasEnvelope → object.metadataMaterial = .ok made.material)) ∨
          (key = target ++ Placement.defaultSuffix ∧
            object.instructionMaterial = .ok made.material))) ∧
    (DrawsDiffer facility.source workload.draws → ∀ call other, call ≠ other →
      (∀ keys contentKey wrapped otherKeys otherContentKey otherWrapped,
        HasGcmWrapped workload.courses call keys contentKey wrapped →
        HasGcmWrapped workload.courses other otherKeys otherContentKey otherWrapped →
        wrapped.take LocalKeys.ivLength ≠ otherWrapped.take LocalKeys.ivLength) ∧
      ∀ writer key plaintext made otherWriter otherKey otherPlaintext otherMade,
        HasMade workload.courses call writer key plaintext made →
        HasMade workload.courses other otherWriter otherKey otherPlaintext otherMade →
        made.contentKey ≠ otherMade.contentKey) := by
  have hinv : Inv store facility initial tasks workload :=
    hrun ▸ inv_run hreplacing facility initial tasks schedule
  refine ⟨⟨hinv.tasks_eq, hinv.facility_eq, hinv.places_eq, fun _ hleft _ hright ↦
    hinv.eq_of_place hleft hright, hinv.accounted⟩, ?_, fun _ _ _ _ ↦ hinv.drawn_of_hasGcmWrapped,
    ?_, ?_⟩
  · intro call writer key plaintext made hmade
    obtain ⟨description, hfrom⟩ := hinv.fromDraws_of_hasMade hmade
    obtain ⟨_, _, hmakes⟩ := hfrom.makes
    exact ⟨hfrom.contentKey_drawn, hfrom.iv_drawn, hmakes.sealBody_eq, hmakes.iv_eq⟩
  · intro key object hobject
    exact (hinv.stored key object hobject).imp_right hinv.cases_of_written
  · intro hdiffer call other hne
    constructor
    · intro keys contentKey wrapped otherKeys otherContentKey otherWrapped hwrapped hother
      exact hinv.drawn_ne hdiffer hne (hinv.drawn_of_hasGcmWrapped hwrapped).1
        (hinv.drawn_of_hasGcmWrapped hother).1
    · intro writer key plaintext made otherWriter otherKey otherPlaintext otherMade hmade hother
      obtain ⟨_, hfrom⟩ := hinv.fromDraws_of_hasMade hmade
      obtain ⟨_, hotherFrom⟩ := hinv.fromDraws_of_hasMade hother
      exact hinv.drawn_ne hdiffer hne hfrom.contentKey_drawn hotherFrom.contentKey_drawn

end Inv

/-! ## Two calls over one master key -/

/-- An open facility over a source whose draws repeat the number of their place. -/
def countingFacility : Facility :=
  ⟨⟨fun place count ↦ List.replicate count (UInt8.ofNat place), fun _ _ ↦ List.length_replicate⟩,
    1, 0⟩

/-- A local provider that wraps in Galois counter mode. -/
def exampleKeys : LocalKeys := ⟨Bytes.zeros 32, .aesGcm⟩

/-- A client over that provider. -/
def exampleWriter : Writer := ⟨.held exampleKeys, .gcm, .objectMetadata⟩

/-- The provider wraps every content key of the right length, with one draw. -/
theorem exists_wrap_exampleKeys {facility : Facility} (hopen : facility.isOpen)
    {contentKey : Bytes} (hkey : contentKey.length = Aes.keyLength) :
    ∃ bytes, bytes ≠ [] ∧ (Keyring.held exampleKeys).provider.wrap contentKey .empty facility =
      (.ok ⟨.aesGcm, bytes, .empty⟩, facility.afterDraws 1) := by
  obtain ⟨bytes, next, hbytes, -⟩ := @LocalKeys.exists_wrapBytes_eq_ok exampleKeys facility
    contentKey rfl hopen (by rw [hkey]; exact exampleKeys.algorithm.wraps_keyLength)
  have hgcm : ∃ iv, Facility.draw LocalKeys.ivLength facility = (.ok iv, next) ∧
      exampleKeys.wrapGcm contentKey iv next = .ok bytes :=
    LocalKeys.wrapBytes_eq_ok_iff.mp hbytes
  obtain ⟨iv, hdraw, -⟩ := hgcm
  obtain ⟨-, -, rfl⟩ := Facility.draw_eq_ok_iff.mp hdraw
  exact ⟨bytes, LocalKeys.wrapBytes_ne_nil hbytes, LocalKeys.wrap_eq_ok_iff.mpr ⟨bytes, hbytes, rfl⟩⟩

/-- While a put is under way, a key is wrapped under the same master key; the put goes on, and its
own key is wrapped under another IV. -/
theorem draws_used_once_interleaved :
    ∃ workload made wrapped,
      (start countingFacility TextMap.empty [.put exampleWriter "report" [1] .empty,
        .wrap (.held exampleKeys) (Bytes.zeros 32) .empty]).run MemoryStore.store [0, 1, 0, 0] =
          workload ∧
      HasMade workload.courses 0 exampleWriter "report" [1] made ∧
      HasGcmWrapped workload.courses 0 exampleKeys made.contentKey made.material.wrappedKey ∧
      HasGcmWrapped workload.courses 1 exampleKeys (Bytes.zeros 32) wrapped ∧
      made.material.wrappedKey.take 12 ≠ wrapped.take 12 := by
  -- What the ciphers answer is not computed here; that they answer is enough.
  obtain ⟨body, hbody⟩ := @Client.exists_sealBody_eq_ok (countingFacility.afterDraws 3) .gcm
    (List.replicate 32 0) (List.replicate 12 2) [1] rfl rfl rfl
    (show 1 ≤ Gcm.maxMessage by decide)
  obtain ⟨wrapped, -, hwrap⟩ :=
    exists_wrap_exampleKeys (show (countingFacility.afterDraws 1).isOpen from rfl)
      (show (Bytes.zeros 32).length = Aes.keyLength from rfl)
  obtain ⟨bytes, hbytes, hown⟩ :=
    exists_wrap_exampleKeys (show (countingFacility.afterDraws 3).isOpen from rfl)
      (show (List.replicate 32 (0 : UInt8)).length = Aes.keyLength from rfl)
  have hiv : (List.replicate 12 (2 : UInt8)).length = Scheme.gcm.ivLength := rfl
  have hvalid : Material.Valid
      ⟨bytes, List.replicate 12 2, .gcm, .aesGcm, some 128, .empty⟩ := ⟨hbytes, hiv, rfl⟩
  have hkey : Client.drawKey countingFacility =
      (.ok (List.replicate 32 0), countingFacility.afterDraws 1) := rfl
  have hother : ((Keyring.held exampleKeys).provider.wrap (Bytes.zeros 32) .empty).mapError
      ClientError.keys (countingFacility.afterDraws 1) =
        (.ok ⟨.aesGcm, wrapped, .empty⟩, countingFacility.afterDraws 2) :=
    Action.mapError_eq_ok_iff.mpr hwrap
  have hseal : exampleWriter.client.sealWithDraw (List.replicate 32 0) [1]
      (countingFacility.afterDraws 2) =
        (.ok (List.replicate 12 2, body), countingFacility.afterDraws 3) :=
    Client.sealWithDraw_eq_ok_iff.mpr ⟨rfl, rfl, rfl, hbody⟩
  have hbuild : exampleWriter.client.wrapAndBuild (List.replicate 32 0) (List.replicate 12 2) .empty
      (countingFacility.afterDraws 3) =
        (.ok ⟨bytes, List.replicate 12 2, .gcm, .aesGcm, some 128, .empty⟩,
          countingFacility.afterDraws 4) :=
    Client.wrapAndBuild_eq_ok_iff.mpr ⟨_, hown,
      Draft.build_eq_ok_iff.mpr ⟨hvalid, fun _ ↦ rfl, rfl⟩⟩
  have hrun : (start countingFacility TextMap.empty [.put exampleWriter "report" [1] .empty,
        .wrap (.held exampleKeys) (Bytes.zeros 32) .empty]).run MemoryStore.store [0, 1, 0, 0] =
      ⟨countingFacility.afterDraws 4, .empty, [⟨.put exampleWriter "report" [1] .empty, .writing
          ⟨List.replicate 32 0, List.replicate 12 2, body,
            ⟨bytes, List.replicate 12 2, .gcm, .aesGcm, some 128, .empty⟩⟩
          (exampleWriter.client.requests "report" body
            ⟨bytes, List.replicate 12 2, .gcm, .aesGcm, some 128, .empty⟩)⟩,
        ⟨.wrap (.held exampleKeys) (Bytes.zeros 32) .empty, .wrapped ⟨.aesGcm, wrapped, .empty⟩⟩],
        [⟨0, .contentKey, 0⟩, ⟨1, .wrapIv, 1⟩, ⟨0, .contentIv .gcm, 2⟩, ⟨0, .wrapIv, 3⟩]⟩ := by
    simp only [run, start, List.foldl_cons, List.foldl_nil, List.map_cons, List.map_nil, step,
      List.getElem?_cons_zero, List.getElem?_cons_succ, act, hkey, hother, hseal, hbuild,
      Phase.after, List.set_cons_zero, List.set_cons_succ]
    rfl
  obtain ⟨-, -, -, -, hfresh⟩ := draws_used_once MemoryStore.store MemoryStore.replacing_store _ _
    _ _ _ hrun
  have hdiffer : DrawsDiffer countingFacility.source
      [⟨0, .contentKey, 0⟩, ⟨1, .wrapIv, 1⟩, ⟨0, .contentIv .gcm, 2⟩, ⟨0, .wrapIv, 3⟩] := by
    unfold DrawsDiffer
    decide
  refine ⟨_, _, wrapped, hrun, ⟨_, _, rfl, rfl⟩, ⟨rfl, _, rfl, rfl⟩, ⟨rfl, _, rfl, rfl⟩, ?_⟩
  exact (hfresh hdiffer 0 1 (by decide)).1 _ _ _ _ _ _ ⟨rfl, _, rfl, rfl⟩ ⟨rfl, _, rfl, rfl⟩

end Workload

end SealedStore
