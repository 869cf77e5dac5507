import DiceBot.Proofs.Json.Distinct
import DiceBot.Proofs.Settings.CutOff

/-!
# Settings after a restart

Settings come from a file or are changed by requests, and a call that saves them without a flaw
leaves a file from which a new start takes the very same settings. The channels of the environment
are kept apart from them all the time: the allowed channels of the settings are those of the first
start, and behind them some that were added one by one.

## Main definitions

* `Settings.IsSteady`: settings that are read back as they were written
* `Settings.IsExtension`: a list with some of the added items behind it
* `Keeper.Request`, `Keeper.run`: what may be asked of a keeper, and what comes of it
* `Keeper.Keeps`: what holds of a keeper after any requests

## Main results

* `Keeper.readFile_of_written`: steady settings are read back as themselves
* `Keeper.Keeps.after`, `Keeper.Keeps.run`: what holds is preserved by a request, and by all of them
* `Keeper.run_congr`: the environment makes no difference to the settings and the file
* `Keeper.ofFile_of_saved`: saved settings are those of the next start
-/

namespace DiceBot

/-! ## Settings that stay as they are -/

namespace Settings

variable {s : Settings} {j : Json}

/-- Settings that are read back as they were written: their lists are there, and no object in them
has a repeated name. -/
structure IsSteady (s : Settings) : Prop where
  developers : s.developers ≠ .null
  allowedChannels : s.allowedChannels ≠ .null
  isDistinct : s.toJson.IsDistinct

theorem isDistinct_toJson_iff : s.toJson.IsDistinct ↔ s.developers.IsDistinct ∧
    s.allowedChannels.IsDistinct ∧ s.playlistId.IsDistinct ∧ s.playlistName.IsDistinct ∧
      s.announceChannel.IsDistinct ∧ s.playlistTimestamp.IsDistinct := by
  have hnames : (["developers", "allowed_channels", "playlist_id", "playlist_name",
      "announce_channel", "playlist_timestamp"] : List Text).Nodup := by decide
  simp only [toJson, Json.IsDistinct, Json.MembersDistinct, List.map_cons, List.map_nil, hnames,
    List.nodup_singleton, and_true, true_and]

theorem orEmpty_of_ne (h : j ≠ .null) : orEmpty j = j := by
  cases j with
  | null => exact absurd rfl h
  | bool _ | integer _ | float _ | text _ | array _ | object _ => rfl

theorem orEmpty_ne_null (j : Json) : orEmpty j ≠ .null := by
  cases j <;> exact nofun

theorem isDistinct_orEmpty (h : j.IsDistinct) : (orEmpty j).IsDistinct := by
  cases j with
  | null => trivial
  | bool _ | integer _ | float _ | text _ | array _ | object _ => exact h

/-- Steady settings are read back as themselves. -/
theorem IsSteady.reloaded (h : s.IsSteady) : s.reloaded = s := by
  have hread := ofJson_reread_toJson s
  rw [Json.reread_of_isDistinct _ h.isDistinct, ofJson_toJson, orEmpty_of_ne h.developers,
    orEmpty_of_ne h.allowedChannels] at hread
  exact (Except.ok.inj hread).symm

theorem isDistinct_getD_find? {members : List (Text × Json)} (h : (Json.object members).IsDistinct)
    {absent : Json} (habsent : absent.IsDistinct) (name : Text) :
    ((Json.find? members name).getD absent).IsDistinct := by
  cases hfind : Json.find? members name with
  | none => exact habsent
  | some j =>
    obtain ⟨m, hm, rfl⟩ := Option.map_eq_some_iff.mp hfind
    exact Json.membersDistinct_iff.mp h.2 m (List.mem_of_find?_eq_some hm)

/-- Settings from a document that was read are steady. -/
theorem isSteady_of_ofJson (hj : j.IsDistinct) (h : ofJson j = .ok s) : s.IsSteady := by
  unfold ofJson at h
  split at h
  · split at h
    · rename_i members hglobal
      have hmembers : (Json.object members).IsDistinct :=
        hglobal ▸ isDistinct_getD_find? hj Json.isDistinct_nil "global"
      cases h
      have hmember {absent : Json} (habsent : absent.IsDistinct) (name : Text) :=
        isDistinct_getD_find? hmembers habsent name
      refine ⟨orEmpty_ne_null _, orEmpty_ne_null _, isDistinct_toJson_iff.mpr
        ⟨isDistinct_orEmpty (hmember ?_ _), isDistinct_orEmpty (hmember ?_ _), hmember ?_ _,
          hmember ?_ _, hmember ?_ _, hmember ?_ _⟩⟩
      all_goals trivial
    · cases h
  · cases h

/-! ### Longer lists -/

/-- A list with more items behind it; what is no list stays as it is. -/
def extendedBy (list : Json) (more : List Json) : Json :=
  match list with
  | .array items => .array (items ++ more)
  | j => j

/-- A list with some of the added items behind it, in the order in which they were added. -/
def IsExtension (list : Json) (added : List Json) (j : Json) : Prop :=
  ∃ more, more.Sublist added ∧ j = extendedBy list more

variable {list item : Json} {added : List Json}

theorem isExtension_self (list : Json) : IsExtension list [] list := by
  refine ⟨[], .slnil, ?_⟩
  cases list with
  | array items => rw [extendedBy, List.append_nil]
  | null | bool _ | integer _ | float _ | text _ | object _ => rfl

theorem IsExtension.append (h : IsExtension list added j) (more : List Json) :
    IsExtension list (added ++ more) j := by
  obtain ⟨front, hfront, rfl⟩ := h
  exact ⟨front, hfront.trans (List.sublist_append_left added more), rfl⟩

theorem IsExtension.extended {longer : Json} (h : IsExtension list added j)
    (hlonger : extended j item = .ok longer) : IsExtension list (added ++ [item]) longer := by
  obtain ⟨more, hmore, rfl⟩ := h
  refine ⟨more ++ [item], hmore.append (.refl [item]), ?_⟩
  cases list with
  | array items =>
    cases hlonger
    rw [extendedBy, List.append_assoc]
  | null | bool _ | integer _ | float _ | text _ | object _ => cases hlonger

theorem of_extended {longer : Json} (h : extended list item = .ok longer)
    (hlist : list.IsDistinct) (hitem : item.IsDistinct) : longer ≠ .null ∧ longer.IsDistinct := by
  cases list with
  | array items =>
    cases h
    refine ⟨nofun, Json.itemsDistinct_iff.mpr (List.forall_mem_append.mpr ⟨?_, ?_⟩)⟩
    · exact Json.itemsDistinct_iff.mp hlist
    · exact List.forall_mem_singleton.mpr hitem
  | null | bool _ | integer _ | float _ | text _ | object _ => cases h

end Settings

namespace Keeper

variable {k k' : Keeper} {s : Settings}

theorem isSteady_of_readFile {t : Text} (h : readFile t = .ok s) : s.IsSteady := by
  unfold readFile at h
  split at h
  · rename_i hread
    exact Settings.isSteady_of_ofJson (Json.isDistinct_of_read hread) h
  · cases h
  · cases h

/-- Steady settings that were written to their end are read back as themselves. -/
theorem readFile_of_written {t : Text} (hs : s.IsSteady) (h : written s = (t, none)) :
    readFile t = .ok s := by
  rw [readFile_written h, hs.reloaded]

/-! ## Requests -/

/-- What may be asked of a keeper, successful or not. -/
inductive Request where
  /-- A call that saves. -/
  | call (c : SaveCall)
  /-- One more developer, not saved. -/
  | addDeveloper (user : Json)
  /-- One more allowed channel, not saved. -/
  | addChannel (channel : Json)
  /-- The settings of the file are taken into use. -/
  | reload
  /-- A new start on the file, with whatever the environment allows then. -/
  | restart (channels : Text)

/-- No object in the value that a call sets has a repeated name. -/
def SaveCall.IsDistinct : SaveCall → Prop
  | timestamp value => value.IsDistinct
  | channel value => value.IsDistinct
  | unchanged => True

/-- No object in the value that a request brings has a repeated name. -/
def Request.IsDistinct : Request → Prop
  | call c => c.IsDistinct
  | addDeveloper user => user.IsDistinct
  | addChannel channel => channel.IsDistinct
  | reload | restart _ => True

/-- The channels that a request adds to the settings. -/
def Request.added : Request → List Json
  | addChannel channel => [channel]
  | _ => []

/-- A keeper after a request. An addition, a reload or a start that fails changes nothing; a call
that fails leaves what it has written. -/
def after (k : Keeper) : Request → Keeper
  | .call c => (k.saved c).1
  | .addDeveloper user => (k.addDeveloper user).toOption.getD k
  | .addChannel channel => (k.addChannel channel).toOption.getD k
  | .reload => (readFile k.file).toOption.elim k fun settings => { k with settings }
  | .restart channels => (ofFile (some k.file) channels).toOption.getD k

/-- A keeper after some requests. -/
def run (k : Keeper) (requests : List Request) : Keeper :=
  requests.foldl after k

/-! ### What requests preserve -/

/-- What holds of a keeper after any requests: its settings are steady, and the allowed channels in
use, and those in the file if it can be read, are a list with some of the added channels behind
it. -/
structure Keeps (k : Keeper) (list : Json) (added : List Json) : Prop where
  isSteady : k.settings.IsSteady
  inUse : Settings.IsExtension list added k.settings.allowedChannels
  inFile : ∀ s, readFile k.file = .ok s → Settings.IsExtension list added s.allowedChannels

variable {list : Json} {added : List Json} {c : SaveCall} {r : Request}

theorem SaveCall.IsDistinct.isSteady (hc : c.IsDistinct) (h : s.IsSteady) :
    (c.settings s).IsSteady := by
  obtain ⟨hdevelopers, hchannels, hid, hname, hannounce, htimestamp⟩ :=
    Settings.isDistinct_toJson_iff.mp h.isDistinct
  refine ⟨?_, ?_, Settings.isDistinct_toJson_iff.mpr ?_⟩
  · cases c <;> exact h.developers
  · cases c <;> exact h.allowedChannels
  · cases c with
    | timestamp value => exact ⟨hdevelopers, hchannels, hid, hname, hannounce, hc⟩
    | channel value => exact ⟨hdevelopers, hchannels, hid, hname, hc, htimestamp⟩
    | unchanged => exact ⟨hdevelopers, hchannels, hid, hname, hannounce, htimestamp⟩

theorem SaveCall.settings_allowedChannels (c : SaveCall) (s : Settings) :
    (c.settings s).allowedChannels = s.allowedChannels := by
  cases c <;> rfl

/-- A call writes the settings that it takes into use, or it leaves a file that cannot be read. -/
theorem Keeps.saved (h : k.Keeps list added) (hc : c.IsDistinct) :
    (k.saved c).1.Keeps list added := by
  cases hsaved : k.saved c with
  | mk k' result =>
    obtain ⟨hsettings, -, hwritten⟩ := of_saved_eq hsaved
    have hsteady : k'.settings.IsSteady := hsettings ▸ hc.isSteady h.isSteady
    have hchannels : Settings.IsExtension list added k'.settings.allowedChannels := by
      rw [hsettings, c.settings_allowedChannels]
      exact h.inUse
    refine ⟨hsteady, hchannels, fun s hs => ?_⟩
    dsimp only at hs
    cases result with
    | none =>
      rw [readFile_of_written hsteady hwritten] at hs
      cases hs
      exact hchannels
    | some flaw =>
      -- the file breaks off, so no reload will take anything from it
      obtain ⟨front, hstops, hfile⟩ := Settings.stopsBehind_of_written hwritten
      rw [hfile, hstops.readFile] at hs
      cases hs

theorem Keeps.addDeveloper {user : Json} (h : k.Keeps list added) (huser : user.IsDistinct)
    (hk : k.addDeveloper user = .ok k') : k'.Keeps list added := by
  obtain ⟨developers, hdevelopers, hk⟩ := bind_eq_ok_iff.mp hk
  cases hk
  obtain ⟨hold, hrest⟩ := Settings.isDistinct_toJson_iff.mp h.isSteady.isDistinct
  obtain ⟨hne, hdistinct⟩ := Settings.of_extended hdevelopers hold huser
  exact ⟨⟨hne, h.isSteady.allowedChannels,
    Settings.isDistinct_toJson_iff.mpr ⟨hdistinct, hrest⟩⟩, h.inUse, h.inFile⟩

theorem Keeps.addChannel {channel : Json} (h : k.Keeps list added) (hchannel : channel.IsDistinct)
    (hk : k.addChannel channel = .ok k') : k'.Keeps list (added ++ [channel]) := by
  obtain ⟨channels, hchannels, hk⟩ := bind_eq_ok_iff.mp hk
  cases hk
  obtain ⟨hdevelopers, hold, hrest⟩ := Settings.isDistinct_toJson_iff.mp h.isSteady.isDistinct
  obtain ⟨hne, hdistinct⟩ := Settings.of_extended hchannels hold hchannel
  exact ⟨⟨h.isSteady.developers, hne,
    Settings.isDistinct_toJson_iff.mpr ⟨hdevelopers, hdistinct, hrest⟩⟩,
    h.inUse.extended hchannels, fun s hs => (h.inFile s hs).append [channel]⟩

theorem Keeps.append (h : k.Keeps list added) (more : List Json) : k.Keeps list (added ++ more) :=
  ⟨h.isSteady, h.inUse.append more, fun s hs => (h.inFile s hs).append more⟩

/-- Settings that are taken from the file hold what the file holds. -/
theorem Keeps.of_readFile (h : k.Keeps list added) (hs : readFile k.file = .ok k'.settings)
    (hfile : k'.file = k.file) : k'.Keeps list added :=
  ⟨isSteady_of_readFile hs, h.inFile _ hs, hfile ▸ h.inFile⟩

/-- A request preserves what holds, with the channel that it adds. -/
theorem Keeps.after (h : k.Keeps list added) (hr : r.IsDistinct) :
    (k.after r).Keeps list (added ++ r.added) := by
  cases r with
  | call c => exact (h.saved hr).append []
  | addDeveloper user =>
    rw [Keeper.after]
    cases hk : k.addDeveloper user with
    | ok k' => exact (h.addDeveloper hr hk).append []
    | error flaw => exact h.append []
  | addChannel channel =>
    rw [Keeper.after]
    cases hk : k.addChannel channel with
    | ok k' => exact h.addChannel hr hk
    | error flaw => exact h.append [channel]
  | reload =>
    rw [Keeper.after]
    cases hs : readFile k.file with
    | ok s =>
      have hreloaded : Keeps { k with settings := s } list added := h.of_readFile hs rfl
      exact hreloaded.append []
    | error flaw => exact h.append []
  | restart channels =>
    rw [Keeper.after]
    cases hk : ofFile (some k.file) channels with
    | ok k' =>
      obtain ⟨hs, hfile⟩ := of_ofFile_some hk
      exact (h.of_readFile hs hfile).append []
    | error flaw => exact h.append []

theorem Keeps.run {requests : List Request} (h : k.Keeps list added)
    (hrequests : ∀ r ∈ requests, r.IsDistinct) :
    (k.run requests).Keeps list (added ++ requests.flatMap Request.added) := by
  induction requests generalizing k added with
  | nil => exact h.append []
  | cons r requests ih =>
    obtain ⟨hr, hrequests⟩ := List.forall_mem_cons.mp hrequests
    rw [List.flatMap_cons, ← List.append_assoc]
    exact ih (h.after hr) hrequests

/-! ### Starts -/

/-- A new start takes over the settings and the file, with the channels of its own environment. -/
theorem ofFile_some_of_readFile {channels : Text} {extra : List Int}
    (h : readFile k.file = .ok k.settings)
    (hchannels : Settings.readChannels channels = .ok extra) :
    ofFile (some k.file) channels = .ok { k with extraChannels := extra } := by
  rw [ofFile, h, hchannels]
  rfl

theorem keeps_of_readFile (h : readFile k.file = .ok k.settings) :
    k.Keeps k.settings.allowedChannels [] := by
  have hself := Settings.isExtension_self k.settings.allowedChannels
  refine ⟨isSteady_of_readFile h, hself, fun s hs => ?_⟩
  rw [h] at hs
  cases hs
  exact hself

/-- What is loaded does not depend on the environment. -/
theorem ofFile_congr {file : Option Text} {channels channels' : Text}
    (h : ofFile file channels = .ok k) (h' : ofFile file channels' = .ok k') :
    k'.settings = k.settings ∧ k'.file = k.file := by
  cases file with
  | some text =>
    obtain ⟨hread, hfile⟩ := of_ofFile_some h
    obtain ⟨hread', hfile'⟩ := of_ofFile_some h'
    exact ⟨Except.ok.inj (hread'.symm.trans hread), hfile'.trans hfile.symm⟩
  | none =>
    obtain ⟨hsettings, hfile⟩ := of_ofFile_none h
    obtain ⟨hsettings', hfile'⟩ := of_ofFile_none h'
    exact ⟨hsettings'.trans hsettings.symm, hfile'.trans hfile.symm⟩

/-- What a request does to the settings and the file does not depend on the environment. -/
theorem after_congr (hsettings : k'.settings = k.settings) (hfile : k'.file = k.file)
    (r : Request) :
    (k'.after r).settings = (k.after r).settings ∧ (k'.after r).file = (k.after r).file := by
  obtain ⟨settings, extra, file⟩ := k
  obtain ⟨settings', extra', file'⟩ := k'
  cases hsettings
  cases hfile
  cases r with
  | call c => cases c <;> exact ⟨rfl, rfl⟩
  | addDeveloper user =>
    simp only [after, addDeveloper]
    cases Settings.extended settings.developers user <;> exact ⟨rfl, rfl⟩
  | addChannel channel =>
    simp only [after, addChannel]
    cases Settings.extended settings.allowedChannels channel <;> exact ⟨rfl, rfl⟩
  | reload =>
    simp only [after]
    cases readFile file <;> exact ⟨rfl, rfl⟩
  | restart channels =>
    simp only [after]
    cases ofFile (some file) channels <;> exact ⟨rfl, rfl⟩

theorem run_congr {requests : List Request} (hsettings : k'.settings = k.settings)
    (hfile : k'.file = k.file) :
    (k'.run requests).settings = (k.run requests).settings ∧
      (k'.run requests).file = (k.run requests).file := by
  induction requests generalizing k k' with
  | nil => exact ⟨hsettings, hfile⟩
  | cons r requests ih =>
    obtain ⟨hsettings, hfile⟩ := after_congr hsettings hfile r
    exact ih hsettings hfile

/-- **Saved settings are those of the next start.** After any requests to a keeper that was started
on a file, or without one, a call that saves without a flaw leaves a file from which every start
takes the same settings, as it does from the file of the first start. The allowed channels that were
saved are those of the first start and some that were added; with other channels in the environment
of the first start, the same settings would be in the same file. -/
theorem ofFile_of_saved {file : Option Text} {channels : Text} {k₀ : Keeper}
    {requests : List Request} {c : SaveCall} (hstart : ofFile file channels = .ok k₀)
    (hrequests : ∀ r ∈ requests, r.IsDistinct) (hc : c.IsDistinct)
    (hsaved : (k₀.run requests).saved c = (k, none)) :
    (∀ channels' extra, Settings.readChannels channels' = .ok extra →
      ofFile (some k₀.file) channels' = .ok { k₀ with extraChannels := extra } ∧
      ofFile (some k.file) channels' = .ok { k with extraChannels := extra }) ∧
    Settings.IsExtension k₀.settings.allowedChannels (requests.flatMap Request.added)
      k.settings.allowedChannels ∧
    ∀ channels' k₁, ofFile file channels' = .ok k₁ →
      ((k₁.run requests).saved c).1.settings = k.settings ∧
        ((k₁.run requests).saved c).1.file = k.file := by
  have hread := readFile_of_ofFile hstart
  have hrun : (k₀.run requests).Keeps _ _ := (keeps_of_readFile hread).run hrequests
  obtain ⟨hsettings, -, hwritten⟩ := of_saved_eq hsaved
  have hk : k.settings.IsSteady := hsettings ▸ hc.isSteady hrun.isSteady
  refine ⟨fun channels' extra hchannels => ⟨?_, ?_⟩, ?_, fun channels' k₁ hstart₁ => ?_⟩
  · exact ofFile_some_of_readFile hread hchannels
  · exact ofFile_some_of_readFile (readFile_of_written hk hwritten) hchannels
  · rw [hsettings, c.settings_allowedChannels]
    exact hrun.inUse
  · obtain ⟨hsettings₁, hfile₁⟩ := ofFile_congr hstart hstart₁
    obtain ⟨hsettings₁, hfile₁⟩ := run_congr hsettings₁ hfile₁
    have hcall := after_congr hsettings₁ hfile₁ (.call c)
    rwa [after, after, hsaved] at hcall

/-- The environment allows the channels 100 and 200, and 300 is added before a call saves. -/
theorem ofFile_of_saved_addedChannel :
    let k₀ : Keeper := ⟨Settings.standard, [100, 200], "\x7b\x7d"⟩
    ofFile (some "\x7b\x7d") "100, 200,bad" = .ok k₀ ∧
      ∃ k, (k₀.run [.addChannel (.integer 300)]).saved (.channel (.integer 100)) = (k, none) ∧
        k.settings.allowedChannels = .array [.integer 300] ∧
          ofFile (some k.file) "100" = .ok { k with extraChannels := [100] } := by
  intro k₀
  have hstart : ofFile (some "\x7b\x7d") "100, 200,bad" = .ok k₀ := rfl
  have hrequests : ∀ r ∈ [Request.addChannel (.integer 300)], r.IsDistinct :=
    List.forall_mem_singleton.mpr trivial
  have hc : (SaveCall.channel (.integer 100)).IsDistinct := trivial
  have hresult : ((k₀.run [.addChannel (.integer 300)]).saved (.channel (.integer 100))).2 =
      none := by
    decide +kernel
  cases hsaved : (k₀.run [.addChannel (.integer 300)]).saved (.channel (.integer 100)) with
  | mk k result =>
    rw [hsaved] at hresult
    cases hresult
    obtain ⟨hrestart, -, -⟩ := ofFile_of_saved hstart hrequests hc hsaved
    obtain ⟨hsettings, -, -⟩ := of_saved_eq hsaved
    exact ⟨hstart, k, rfl, congrArg Settings.allowedChannels hsettings,
      (hrestart "100" [100] rfl).2⟩

end Keeper

end DiceBot
