import Journey.CharacterLimit
import Journey.NewPostVC

namespace Journey

open Graphemes

-- Of a location the code reads the signs of its accuracies; the rest goes to the
-- geocoder.
structure CLLocation where
  coordinate : Int × Int
  horizontalAccuracy : Int
  verticalAccuracy : Int
  deriving DecidableEq, Repr

structure CLPlacemark where
  subThoroughfare : Option String
  locality : Option String
  administrativeArea : Option String
  deriving DecidableEq, Repr

inductive CLAuthorizationStatus where
  | notDetermined
  | restricted
  | denied
  | authorizedAlways
  | authorizedWhenInUse
  deriving DecidableEq, Repr

-- What NewPostVC holds while it is on the screen. The label of the location and
-- its pin are hidden together.
structure Draft where
  composer : Composer
  postPhoto : Option UIImage
  postLocation : String
  postDate : String
  locationHidden : Bool
  updatingLocation : Bool
  geocodes : List CLLocation
  accessDenied : Bool
  deriving DecidableEq, Repr

-- The storyboard gives the photo view the image of a placeholder and the label
-- of the location no text.
def NewPostVC.viewDidLoad (placeholder : UIImage) (darkMode : Bool) (date : String) : Draft :=
  {composer := {Composer.opened darkMode with tintColor := .darkGray},postPhoto := some placeholder,postLocation := "",
   postDate := date,locationHidden := false,updatingLocation := false,geocodes := [],accessDenied := false}

def callLocationServices (d : Draft) (locationServicesEnabled : Bool) : Draft :=
  if locationServicesEnabled then {d with updatingLocation := true} else d

def UIColor.plain (darkMode : Bool) : UIColor := if darkMode then .white else .darkGray

def NewPostVC.viewWillAppear (d : Draft) (locationServicesEnabled : Bool) : Draft :=
  callLocationServices {d with composer := {d.composer with tintColor := .plain d.composer.darkMode}}
    locationServicesEnabled

-- locationManager(_:didUpdateLocations:); `locations[0]` traps when there is none.
def didUpdateLocations (d : Draft) (locations : List CLLocation) : Option Draft :=
  locations.head?.map fun currentLocation =>
    if currentLocation.verticalAccuracy < 0 then d
    else if currentLocation.horizontalAccuracy < 0 then d
    else {d with updatingLocation := false,geocodes := d.geocodes ++ [currentLocation]}

-- The closure of reverseGeocodeLocation. A street number makes it show the town
-- and the area, both unwrapped; `placemark?[0]` traps for no placemarks.
def reverseGeocodeClosure (d : Draft) (error : Bool) (placemark : Option (List CLPlacemark)) : Option Draft :=
  if error then some d
  else match placemark with
    | none => some d
    | some [] => none
    | some (place :: _) =>
      if place.subThoroughfare.isNone then some d
      else do
        let locality ← place.locality
        let administrativeArea ← place.administrativeArea
        return {d with postLocation := locality ++ ", " ++ administrativeArea}

-- locationManager(_:didChangeAuthorization:)
def didChangeAuthorization (d : Draft) : CLAuthorizationStatus → Draft
  | .notDetermined => {d with locationHidden := true}
  | .authorizedWhenInUse => {d with locationHidden := false}
  | .authorizedAlways => {d with locationHidden := false}
  | .restricted => {d with locationHidden := true}
  | .denied => {d with locationHidden := true,accessDenied := true}

-- imagePickerController(_:didFinishPickingMediaWithInfo:)
def didFinishPicking (d : Draft) (editedImage originalImage : Option UIImage) : Draft :=
  match editedImage with
  | some pickedImage => {d with postPhoto := some pickedImage}
  | none => match originalImage with
      | some pickedImage => {d with postPhoto := some pickedImage}
      | none => d

def Draft.form (d : Draft) : Form :=
  {text := String.ofList d.composer.text,location := d.postLocation,date := d.postDate,image := d.postPhoto}

inductive DraftEvent where
  | viewWillAppear (locationServicesEnabled : Bool)
  | didUpdateLocations (locations : List CLLocation)
  | geocoded (index : Nat) (error : Bool) (placemark : Option (List CLPlacemark))
  | didChangeAuthorization (status : CLAuthorizationStatus)
  | shouldChangeText (edit : Edit)
  | didFinishPicking (editedImage originalImage : Option UIImage)
  | okay
  deriving DecidableEq, Repr

-- The outer `none`: the event is not possible now. The inner one: it traps.
def Draft.react (swift : Segmentation) (d : Draft) : DraftEvent → Option (Option Draft)
  | .viewWillAppear enabled => some (some (NewPostVC.viewWillAppear d enabled))
  | .didUpdateLocations locations => some (Journey.didUpdateLocations d locations)
  | .geocoded index error placemark => d.geocodes[index]?.map fun _ =>
      reverseGeocodeClosure {d with geocodes := d.geocodes.eraseIdx index} error placemark
  | .didChangeAuthorization status => some (some (Journey.didChangeAuthorization d status))
  | .shouldChangeText edit => (d.composer.propose swift edit).map fun composer => some {d with composer}
  | .didFinishPicking editedImage originalImage => some (some (Journey.didFinishPicking d editedImage originalImage))
  | .okay => if d.accessDenied then some (some {d with accessDenied := false}) else none

def Draft.step (swift : Segmentation) (d : Draft) (event : DraftEvent) : Option Draft := (d.react swift event).join

def Draft.opened (placeholder : UIImage) (darkMode : Bool) (date : String) (locationServicesEnabled : Bool) : Draft :=
  NewPostVC.viewWillAppear (NewPostVC.viewDidLoad placeholder darkMode date) locationServicesEnabled

abbrev drafts (swift : Segmentation) : Draft → List DraftEvent → Option Draft := Runs.run (Draft.step swift)

abbrev typing (swift : Segmentation) : Composer → List Edit → Option Composer := Runs.run (Composer.propose swift)

def DraftEvent.edit? : DraftEvent → Option Edit
  | .shouldChangeText edit => some edit
  | _ => none

def DraftEvent.composed (swift : Segmentation) (c : Composer) : DraftEvent → Option Composer
  | .viewWillAppear _ => some {c with tintColor := .plain c.darkMode}
  | .shouldChangeText edit => c.propose swift edit
  | _ => some c

def DraftEvent.picked : DraftEvent → Option UIImage
  | .didFinishPicking editedImage originalImage => editedImage <|> originalImage
  | _ => none

def DraftEvent.located : DraftEvent → Option String
  | .geocoded _ false (some (place :: _)) => do
      let _ ← place.subThoroughfare
      return (← place.locality) ++ ", " ++ (← place.administrativeArea)
  | _ => none

section

variable {swift : Segmentation} {d next : Draft} {event : DraftEvent}

theorem draft_iff : d.step swift event = some next ↔ d.react swift event = some (some next) := Option.join_eq_some_iff

theorem didUpdateLocations_moves {locations : List CLLocation} (taken : didUpdateLocations d locations = some next) :
    ∃ updating geocodes, next = {d with updatingLocation := updating,geocodes := geocodes} := by
  obtain ⟨currentLocation,_,rfl⟩ := Option.map_eq_some_iff.mp taken
  split
  · exact ⟨_,_,rfl⟩
  · split <;> exact ⟨_,_,rfl⟩

theorem reverseGeocode_writes {error : Bool} {placemark : Option (List CLPlacemark)} (index : Nat)
    (taken : reverseGeocodeClosure d error placemark = some next) :
    next = {d with postLocation := (DraftEvent.geocoded index error placemark).located.getD d.postLocation} := by
  cases error with
  | true =>
      cases taken
      rfl
  | false =>
    cases placemark with
    | none =>
        cases taken
        rfl
    | some places =>
      cases places with
      | nil => cases taken
      | cons place rest =>
        cases number : place.subThoroughfare with
        | none => simpa [reverseGeocodeClosure,DraftEvent.located,number] using taken.symm
        | some street =>
            simp only [reverseGeocodeClosure,number,Bool.false_eq_true,if_false,Option.isNone_some] at taken
            obtain ⟨locality,town,rest⟩ := Option.bind_eq_some_iff.mp taken
            obtain ⟨administrativeArea,area,shown⟩ := Option.bind_eq_some_iff.mp rest
            cases shown
            simp [DraftEvent.located,number,town,area]

theorem draft_writes (taken : d.step swift event = some next) :
    ∃ composer hidden updating geocodes denied,
      event.composed swift d.composer = some composer ∧
        next = {d with composer := composer,postPhoto := event.picked <|> d.postPhoto,
                       postLocation := event.located.getD d.postLocation,locationHidden := hidden,
                       updatingLocation := updating,geocodes := geocodes,accessDenied := denied} := by
  have reacts := draft_iff.mp taken
  cases event with
  | viewWillAppear enabled =>
      cases Option.some.inj reacts
      cases enabled <;> exact ⟨_,_,_,_,_,rfl,rfl⟩
  | didUpdateLocations locations =>
      obtain ⟨updating,geocodes,rfl⟩ := didUpdateLocations_moves (Option.some.inj reacts)
      exact ⟨_,_,_,_,_,rfl,rfl⟩
  | geocoded index error placemark =>
      obtain ⟨_,_,answered⟩ := Option.map_eq_some_iff.mp reacts
      obtain rfl := reverseGeocode_writes index answered
      exact ⟨_,_,_,_,_,rfl,rfl⟩
  | didChangeAuthorization status =>
      cases Option.some.inj reacts
      cases status <;> exact ⟨_,_,_,_,_,rfl,rfl⟩
  | shouldChangeText edit =>
      obtain ⟨composer,proposed,made⟩ := Option.map_eq_some_iff.mp reacts
      cases Option.some.inj made
      exact ⟨_,_,_,_,_,proposed,rfl⟩
  | didFinishPicking editedImage originalImage =>
      cases Option.some.inj reacts
      cases editedImage <;> cases originalImage <;> exact ⟨_,_,_,_,_,rfl,rfl⟩
  | okay =>
      simp only [Draft.react] at reacts
      split at reacts
      · cases reacts
        exact ⟨_,_,_,_,_,rfl,rfl⟩
      · cases reacts

def DraftEvent.traps : DraftEvent → Bool
  | .didUpdateLocations locations => locations.isEmpty
  | .geocoded _ false (some []) => true
  | .geocoded _ false (some (place :: _)) =>
    place.subThoroughfare.isSome && (place.locality.isNone || place.administrativeArea.isNone)
  | _ => false

theorem reverseGeocode_traps {error : Bool} {placemark : Option (List CLPlacemark)} (index : Nat) :
    reverseGeocodeClosure d error placemark = none ↔ (DraftEvent.geocoded index error placemark).traps = true := by
  cases error with
  | true => simp [reverseGeocodeClosure,DraftEvent.traps]
  | false =>
    rcases placemark with none | places
    · simp [reverseGeocodeClosure,DraftEvent.traps]
    · cases places with
      | nil => simp [reverseGeocodeClosure,DraftEvent.traps]
      | cons place rest =>
          cases number : place.subThoroughfare <;> cases town : place.locality <;>
            cases area : place.administrativeArea <;>
              simp [reverseGeocodeClosure,DraftEvent.traps,number,town,area]

theorem draft_traps {outcome : Option Draft} (reacts : d.react swift event = some outcome) :
    outcome = none ↔ event.traps = true := by
  cases event with
  | didUpdateLocations locations =>
      cases reacts
      cases locations <;> simp [didUpdateLocations,DraftEvent.traps]
  | geocoded index error placemark =>
      obtain ⟨_,_,rfl⟩ := Option.map_eq_some_iff.mp reacts
      exact reverseGeocode_traps index
  | shouldChangeText edit =>
      obtain ⟨_,_,rfl⟩ := Option.map_eq_some_iff.mp reacts
      simp [DraftEvent.traps]
  | okay =>
      simp only [Draft.react] at reacts
      split at reacts
      · cases reacts
        simp [DraftEvent.traps]
      · cases reacts
  | _ =>
      cases reacts
      simp [DraftEvent.traps]

-- A run of the screen is, for the text, a run of the text view alone; only the
-- colour of the counter can differ.
def Draft.Follows (d : Draft) (c : Composer) : Prop := d.composer = {c with tintColor := d.composer.tintColor}

theorem propose_tint (c : Composer) (color : UIColor) (edit : Edit) :
    ({c with tintColor := color} : Composer).propose swift edit = c.propose swift edit := by
  have selects : ({c with tintColor := color} : Composer).selection swift edit.range =
      c.selection swift edit.range := rfl
  have answers : textView swift {c with tintColor := color} edit.range edit.text =
      textView swift c edit.range edit.text := by
    simp only [textView]
    split <;> rfl
  rw [Composer.propose,Composer.propose,selects,answers]

theorem step_follows {c : Composer} (follows : d.Follows c) (taken : d.step swift event = some next) :
    ∃ composer, typing swift c event.edit?.toList = some composer ∧ next.Follows composer := by
  obtain ⟨composer,_,_,_,_,moved,made⟩ := draft_writes taken
  subst made
  cases event with
  | shouldChangeText edit =>
      rw [DraftEvent.composed,follows,propose_tint] at moved
      exact ⟨composer,Runs.run_one.trans moved,rfl⟩
  | viewWillAppear enabled =>
      cases moved
      refine ⟨c,rfl,?_⟩
      rw [Draft.Follows] at follows ⊢
      rw [follows]
  | _ =>
      cases moved
      exact ⟨c,rfl,follows⟩

end

section

variable {swift : Segmentation} {placeholder : UIImage} {darkMode enabled : Bool} {date : String}
    {events : List DraftEvent} {final : Draft}

def picture (placeholder : UIImage) (events : List DraftEvent) : UIImage :=
  (events.filterMap DraftEvent.picked).getLastD placeholder

def place (events : List DraftEvent) : String := (events.filterMap DraftEvent.located).getLastD ""

theorem run_picture (ran : drafts swift (.opened placeholder darkMode date enabled) events = some final) :
    final.postPhoto = some (picture placeholder events) := by
  have last := Runs.run_last Draft.postPhoto (fun event => event.picked.map some)
    (fun s e t taken => by
      obtain ⟨_,_,_,_,_,_,made⟩ := draft_writes taken
      cases chosen : e.picked <;> simp [made,chosen]) ran
  have start : (Draft.opened placeholder darkMode date enabled).postPhoto = some placeholder := by
    cases enabled <;> rfl
  rw [last,start,← List.map_filterMap,picture,List.getLastD_eq_getLast?,List.getLastD_eq_getLast?,List.getLast?_map]
  cases (events.filterMap DraftEvent.picked).getLast? <;> rfl

theorem run_place (ran : drafts swift (.opened placeholder darkMode date enabled) events = some final) :
    final.postLocation = place events := by
  have last := Runs.run_last Draft.postLocation DraftEvent.located
    (fun s e t taken => by
      obtain ⟨_,_,_,_,_,_,made⟩ := draft_writes taken
      rw [made]) ran
  have start : (Draft.opened placeholder darkMode date enabled).postLocation = "" := by cases enabled <;> rfl
  rw [last,start,place]

theorem run_date (ran : drafts swift (.opened placeholder darkMode date enabled) events = some final) :
    final.postDate = date := by
  refine Runs.run_invariant (I := fun d => d.postDate = date) (by cases enabled <;> rfl) ?_ ran
  intro s e t same taken
  obtain ⟨_,_,_,_,_,_,made⟩ := draft_writes taken
  rw [made,same]

theorem run_composer (ran : drafts swift (.opened placeholder darkMode date enabled) events = some final) :
    ∃ composer, typing swift (.opened darkMode) (events.filterMap DraftEvent.edit?) = some composer ∧
      final.Follows composer := by
  have start : (Draft.opened placeholder darkMode date enabled).Follows (.opened darkMode) := by cases enabled <;> rfl
  exact Runs.run_projects DraftEvent.edit? start (fun _ _ _ _ follows taken => step_follows follows taken) ran

theorem draft_form (ran : drafts swift (.opened placeholder darkMode date enabled) events = some final) :
    ∃ composer, typing swift (.opened darkMode) (events.filterMap DraftEvent.edit?) = some composer ∧
      final.form = ⟨String.ofList composer.text,place events,date,some (picture placeholder events)⟩ := by
  obtain ⟨composer,typed,follows⟩ := run_composer ran
  refine ⟨composer,typed,?_⟩
  have text : final.composer.text = composer.text := by rw [Draft.Follows] at follows; rw [follows]
  rw [Draft.form,text,run_place ran,run_date ran,run_picture ran]

-- The placeholder is a photo, so a missing one never refuses a draft.
theorem draft_saved (key : String) (device : Device)
    (ran : drafts swift (.opened placeholder darkMode date enabled) events = some final) {user : User}
    (signed : device.currentUser = some user) :
    ∃ composer, typing swift (.opened darkMode) (events.filterMap DraftEvent.edit?) = some composer ∧
      let post : Post := {id := some key,text := String.ofList composer.text,location := place events,date := date,
                          image := some (picture placeholder events)}
      saveNewPost key device final.form =
        if composer.text = [] then ⟨none,some device⟩
        else ⟨some (.setValue user.uid key post),(picture placeholder events).jpeg.map fun data =>
          {device with uploads := device.uploads ++ [.ofPost user.uid key data post]}⟩ := by
  obtain ⟨composer,typed,shown⟩ := draft_form ran
  refine ⟨composer,typed,?_⟩
  intro post
  by_cases blank : composer.text = []
  · rw [if_pos blank,shown,blank]
    exact saveNewPost_refused (.inl rfl)
  · rw [if_neg blank,shown]
    have text : String.ofList composer.text ≠ "" := fun empty => blank (String.ofList_eq_empty_iff.mp empty)
    exact saveNewPost_saved text rfl signed

-- The photo of a picker and the geocoder's answer come between two edits.
theorem draft_saved_replaced :
    let swift := Segmentation.unicode breakProperty
    let events : List DraftEvent := [.shouldChangeText ⟨⟨0,0⟩,['t','e','a']⟩,.didUpdateLocations [⟨(45,-73),5,4⟩],
      .didFinishPicking none (some ⟨some [2]⟩),.viewWillAppear true,
      .geocoded 0 false (some [⟨some "12",some "Laval",some "QC"⟩]),.shouldChangeText ⟨⟨0,2⟩,['s']⟩]
    let device : Device := {Device.launched with currentUser := some ⟨"ann",none⟩}
    ∃ final, drafts swift (.opened ⟨some [0]⟩ true "noon" true) events = some final ∧
      (saveNewPost "k" device final.form).request =
        some (.setValue "ann" "k" ⟨some "k","sa","Laval, QC","noon",some ⟨some [2]⟩⟩) := by
  intro swift events device
  obtain ⟨final,ran⟩ := Option.isSome_iff_exists.mp
    (show (drafts swift (.opened ⟨some [0]⟩ true "noon" true) events).isSome = true by decide)
  refine ⟨final,ran,?_⟩
  obtain ⟨composer,typed,saved⟩ := draft_saved "k" device ran (show device.currentUser = some ⟨"ann",none⟩ from rfl)
  have text : composer.text = ['s','a'] := by
    obtain ⟨other,again,same⟩ : ∃ c, typing swift (.opened true)
        (events.filterMap DraftEvent.edit?) = some c ∧ c.text = ['s','a'] := Runs.run_reaches (by decide)
    cases typed.symm.trans again
    exact same
  rw [saved,if_neg (by rw [text]; exact List.cons_ne_nil _ _),text]
  rfl

-- The colour that the count calls for. The view's appearance paints the plain one
-- without looking at the count, also when a picker of photos goes away again.
def Draft.Tinted (d : Draft) : Prop := d.composer.tintColor = tint d.composer.darkMode d.composer.limitText

def Draft.Repaints (d : Draft) (event : DraftEvent) : Prop :=
  ∃ enabled, event = .viewWillAppear enabled ∧ limitLength - 25 ≤ d.composer.limitText

theorem tint_plain {limitText : Int} (short : limitText ≤ limitLength) :
    UIColor.plain darkMode = tint darkMode limitText ↔ limitText < limitLength - 25 := by
  have bound : limitLength = 85 := rfl
  cases darkMode <;> simp only [UIColor.plain,tint,bound,Bool.false_eq_true,if_false,if_true] at short ⊢ <;>
    split <;> (try split) <;> (try split) <;> simp <;> omega

theorem propose_tinted {c composer : Composer} {edit : Edit} (proposed : c.propose swift edit = some composer) :
    composer.tintColor = tint composer.darkMode composer.limitText ∧
      (c.limitText ≤ limitLength → composer.limitText ≤ limitLength) := by
  obtain ⟨selection,selects,_⟩ := Option.map_eq_some_iff.mp proposed
  by_cases fits : (swift.count c.text + swift.count edit.text - edit.range.length : Int) ≤ limitLength
  · cases proposed.symm.trans (propose_accepted selects rfl fits)
    exact ⟨rfl,fun _ => fits⟩
  · cases proposed.symm.trans (propose_refused selects rfl fits)
    exact ⟨rfl,id⟩

theorem run_short (ran : drafts swift (.opened placeholder darkMode date enabled) events = some final) :
    final.composer.limitText ≤ limitLength := by
  have start : (Draft.opened placeholder darkMode date enabled).composer.limitText ≤ limitLength := by
    cases enabled <;> exact Int.le.intro 85 rfl
  refine Runs.run_invariant (I := fun d => d.composer.limitText ≤ limitLength) start ?_ ran
  intro s e t short taken
  obtain ⟨composer,_,_,_,_,moved,made⟩ := draft_writes taken
  subst made
  cases e with
  | shouldChangeText edit => exact (propose_tinted moved).2 short
  | _ =>
      cases moved
      exact short

theorem step_tinted {s next : Draft} {event : DraftEvent} (short : s.composer.limitText ≤ limitLength)
    (tinted : s.Tinted) (taken : s.step swift event = some next) : next.Tinted ↔ ¬ s.Repaints event := by
  obtain ⟨composer,_,_,_,_,moved,made⟩ := draft_writes taken
  subst made
  cases event with
  | shouldChangeText edit => simp [Draft.Tinted,Draft.Repaints,(propose_tinted moved).1]
  | viewWillAppear shown =>
      cases moved
      simp only [Draft.Tinted,Draft.Repaints,tint_plain short,DraftEvent.viewWillAppear.injEq,exists_and_right,
        exists_eq',true_and,not_le]
  | _ =>
      cases moved
      exact iff_of_true tinted (by simp [Draft.Repaints])

theorem tint_exact (ran : drafts swift (.opened placeholder darkMode date enabled) events = some final) :
    Runs.Always (Draft.step swift) (.opened placeholder darkMode date enabled) events (fun _ d => d.Tinted) ↔
      Runs.Guarded (Draft.step swift) (.opened placeholder darkMode date enabled) events
        fun _ d event => ¬ d.Repaints event := by
  have start : (Draft.opened placeholder darkMode date enabled).Tinted := by
    cases darkMode <;> cases enabled <;> rfl
  exact Runs.always_iff_guarded start
    (fun _ _ _ _ reached tinted taken => step_tinted (run_short reached) tinted taken) ran

-- Sixty Characters, then a photo: the counter is plain again.
theorem tint_exact_picker : ¬ Runs.Always (Draft.step (.unicode breakProperty)) (.opened ⟨none⟩ false "noon" true)
    [.shouldChangeText ⟨⟨0,0⟩,List.replicate 60 'a'⟩,.didFinishPicking none (some ⟨none⟩),.viewWillAppear true]
    fun _ d => d.Tinted := by
  obtain ⟨final,ran⟩ := Option.isSome_iff_exists.mp (show (drafts (.unicode breakProperty)
    (.opened ⟨none⟩ false "noon" true) [.shouldChangeText ⟨⟨0,0⟩,List.replicate 60 'a'⟩,
      .didFinishPicking none (some ⟨none⟩),.viewWillAppear true]).isSome = true by decide)
  rw [tint_exact ran]
  intro plain
  obtain ⟨picked,before,long⟩ : ∃ d, drafts (.unicode breakProperty) (.opened ⟨none⟩ false "noon" true)
      [.shouldChangeText ⟨⟨0,0⟩,List.replicate 60 'a'⟩,.didFinishPicking none (some ⟨none⟩)] = some d ∧
        limitLength - 25 ≤ d.composer.limitText := Runs.run_reaches (by decide)
  exact plain _ _ [] picked rfl before ⟨true,rfl,long⟩

end

end Journey
