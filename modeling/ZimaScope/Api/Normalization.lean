import Mathlib.Data.List.DropRight
import ZimaScope.Api.Settings
import ZimaScope.Lib.Clusters
import ZimaScope.Lib.System

/-! # Normalisation

When normalising settings again changes nothing, and what a patch that restates
the current settings comes to.
-/

namespace ZimaScope

/-- What `put_settings` or `patch_settings` is called with. -/
inductive SettingsRequest
  | put (body : Settings)
  | patch (patch : SettingsPatch)

namespace SettingsRequest

def requested (s : Settings) : SettingsRequest → Settings
  | put body => body
  | patch p => p.apply s

/-- The settings that a request stores, or why it is refused. -/
def stored (s : Settings) (request : SettingsRequest) : Except ApiError Settings :=
  let settings := (request.requested s).normalize
  settings.validate.map fun _ => settings

end SettingsRequest

/-- The settings after each of a sequence of requests that meet a condition. -/
def settingsRuns (cond : Settings → SettingsRequest → Prop) : System Settings where
  init s := s = {}
  step s s' := ∃ request, cond s request ∧
    s' = match request.stored s with
      | .ok settings => settings
      | .error _ => s

/-- A blank stands right before the slashes that the URL ends with. -/
def BlankBeforeSlashes (url : String) : Prop :=
  ∃ head c n, (trim url).toList = head ++ c :: List.replicate n '/' ∧ isWhiteSpace c = true

namespace Settings

/-- The names that are left without the blanks around them. -/
def names (s : Settings) : List String := (s.boundary.interfaces.map trim).filter (· ≠ "")

/-- Normalised once and for all, without two equal names and without a blank or padded one. -/
structure Projected (s : Settings) : Prop where
  again : s.normalize.normalize = s.normalize
  distinct : s.normalize.boundary.interfaces.Nodup
  trimmed : ∀ name ∈ s.normalize.boundary.interfaces, name ≠ "" ∧ trim name = name

end Settings

/-! ## Trimming -/

section Trimming

variable (s : String)

theorem toList_trim : (trim s).toList = (s.toList.dropWhile isWhiteSpace).rdropWhile isWhiteSpace := by
  rw [trim, String.toList_ofList, List.rdropWhile]

theorem toList_trimEndMatches (c : Char) :
    (trimEndMatches s c).toList = s.toList.rdropWhile (· = c) := by
  rw [trimEndMatches, String.toList_ofList, List.rdropWhile]

/-- A part at the start of a list that begins with a letter to keep begins with it as well. -/
theorem dropWhile_eq_self_of_prefix {p : Char → Bool} {l u : List Char} (h : u <+: l.dropWhile p) :
    u.dropWhile p = u := by
  rw [List.dropWhile_eq_self_iff]
  intro hu
  obtain ⟨rest, hrest⟩ := h
  obtain ⟨c, u, rfl⟩ := List.exists_cons_of_ne_nil (List.ne_nil_of_length_pos hu)
  have hne : l.dropWhile p ≠ [] := by
    rw [← hrest]
    simp
  have hhead := List.head_dropWhile_not p hne
  simp only [← hrest, List.cons_append, List.head_cons] at hhead
  simpa using hhead

theorem trim_trim : trim (trim s) = trim s := by
  rw [← String.toList_inj, toList_trim (trim s), toList_trim s,
    dropWhile_eq_self_of_prefix (List.rdropWhile_prefix _ _), List.rdropWhile_idempotent]

/-- What is left of a URL: the blanks around it go first, then the slashes at its end. -/
def strippedUrl : String := trimEndMatches (trim s) '/'

theorem toList_strippedUrl : (strippedUrl s).toList =
    ((s.toList.dropWhile isWhiteSpace).rdropWhile isWhiteSpace).rdropWhile (· = '/') := by
  rw [strippedUrl, toList_trimEndMatches, toList_trim]

theorem rdropWhile_append_replicate {c : Char} {l : List Char} {n : ℕ} :
    (l ++ List.replicate n c).rdropWhile (· = c) = l.rdropWhile (· = c) := by
  induction n with
  | zero => rw [List.replicate_zero, List.append_nil]
  | succ n ih => rw [List.replicate_succ', ← List.append_assoc,
      List.rdropWhile_concat_pos _ _ _ (by simp), ih]

theorem blankBeforeSlashes_iff : BlankBeforeSlashes s ↔
    ∃ h : (strippedUrl s).toList ≠ [], isWhiteSpace ((strippedUrl s).toList.getLast h) = true := by
  have htext : (strippedUrl s).toList = (trim s).toList.rdropWhile (· = '/') :=
    toList_trimEndMatches (trim s) '/'
  constructor
  · rintro ⟨head, c, n, htrim, hc⟩
    have hstripped : (strippedUrl s).toList = head ++ [c] := by
      have hslash : c ≠ '/' := by
        rintro rfl
        exact absurd hc (by decide)
      rw [htext, htrim, ← List.singleton_append, ← List.append_assoc, rdropWhile_append_replicate]
      exact List.rdropWhile_concat_neg _ _ _ (by simpa using hslash)
    simp only [hstripped]
    exact ⟨by simp, by simpa using hc⟩
  · rintro ⟨hne, hlast⟩
    have hslashes : (trim s).toList.rtakeWhile (· = '/') =
        List.replicate ((trim s).toList.rtakeWhile (· = '/')).length '/' :=
      List.eq_replicate_of_mem fun c hc => by simpa using List.mem_rtakeWhile_imp hc
    refine ⟨(strippedUrl s).toList.dropLast, (strippedUrl s).toList.getLast hne,
      ((trim s).toList.rtakeWhile (· = '/')).length, ?_, hlast⟩
    rw [← hslashes, ← List.singleton_append, ← List.append_assoc, List.dropLast_append_getLast,
      htext, List.rdropWhile_append_rtakeWhile]

/-- Stripping again keeps the URL unless a blank stood before the slashes. -/
theorem strippedUrl_strippedUrl_iff :
    strippedUrl (strippedUrl s) = strippedUrl s ↔ ¬BlankBeforeSlashes s := by
  have hprefix : (strippedUrl s).toList <+: s.toList.dropWhile isWhiteSpace := by
    rw [toList_strippedUrl]
    exact (List.rdropWhile_prefix _ _).trans (List.rdropWhile_prefix _ _)
  have hhead := dropWhile_eq_self_of_prefix hprefix
  have hkept : (strippedUrl s).toList.rdropWhile (· = '/') = (strippedUrl s).toList := by
    rw [toList_strippedUrl]
    exact List.rdropWhile_idempotent _ _
  rw [← String.toList_inj, toList_strippedUrl (strippedUrl s), hhead, blankBeforeSlashes_iff]
  generalize (strippedUrl s).toList = url at hkept ⊢
  have hself : (url.rdropWhile isWhiteSpace).rdropWhile (· = '/') = url ↔
      url.rdropWhile isWhiteSpace = url := by
    constructor
    · intro h
      have hlength := (List.rdropWhile_prefix (· = '/') (url.rdropWhile isWhiteSpace)).length_le
      rw [h] at hlength
      exact (List.rdropWhile_prefix isWhiteSpace url).eq_of_length_le hlength
    · intro h
      rw [h, hkept]
  rw [hself, List.rdropWhile_eq_self_iff, not_exists]

end Trimming

/-! ## Normalising again -/

namespace Settings

variable {s : Settings}

theorem normalize_eq_self_iff : s.normalize = s ↔
    s.names.destutter (· ≠ ·) = s.boundary.interfaces ∧
      (s.domains.enabled = false →
        s.domains.dns = false ∧ s.domains.tlsSni = false ∧ s.domains.httpHost = false) ∧
      strippedUrl s.proxy.controllerUrl = s.proxy.controllerUrl ∧
        (if s.proxy.enabled then trim s.proxy.secret else "") = s.proxy.secret := by
  constructor
  · intro h
    refine ⟨congrArg (fun s => s.boundary.interfaces) h, fun hoff => ?_,
      congrArg (fun s => s.proxy.controllerUrl) h, congrArg (fun s => s.proxy.secret) h⟩
    have hdomains := congrArg Settings.domains h
    simp only [normalize, hoff, Bool.false_eq_true, if_false] at hdomains
    rw [← hdomains]
    exact ⟨rfl, rfl, rfl⟩
  · rintro ⟨hnames, hdomains, hurl, hsecret⟩
    obtain ⟨enabled, ⟨interfaces⟩, ⟨observed, dns, tlsSni, httpHost⟩, history, resources,
      ⟨proxied, url, secret⟩, rules⟩ := s
    simp only [names, strippedUrl] at hnames hdomains hurl hsecret
    simp only [normalize, hnames, hurl, hsecret]
    cases observed
    · obtain ⟨rfl, rfl, rfl⟩ := hdomains rfl
      rfl
    · rfl

theorem trimmed_of_mem_normalize {name : String} (h : name ∈ s.normalize.boundary.interfaces) :
    name ≠ "" ∧ trim name = name := by
  have hmem : name ∈ s.names := (List.destutter_sublist (R := (· ≠ ·)) s.names).subset h
  obtain ⟨htrimmed, hne⟩ := List.mem_filter.mp hmem
  obtain ⟨raw, -, rfl⟩ := List.mem_map.mp htrimmed
  exact ⟨by simpa using hne, trim_trim raw⟩

theorem names_normalize : s.normalize.names = s.normalize.boundary.interfaces := by
  have hmap : s.normalize.boundary.interfaces.map trim = s.normalize.boundary.interfaces :=
    (List.map_congr_left fun name h => (trimmed_of_mem_normalize h).2).trans (List.map_id _)
  rw [names, hmap, List.filter_eq_self]
  intro name h
  simpa using (trimmed_of_mem_normalize h).1

theorem normalize_normalize_iff :
    s.normalize.normalize = s.normalize ↔ ¬BlankBeforeSlashes s.proxy.controllerUrl := by
  rw [normalize_eq_self_iff, ← strippedUrl_strippedUrl_iff]
  refine ⟨fun h => h.2.2.1, fun hurl => ⟨?_, fun hoff => ?_, hurl, ?_⟩⟩
  · rw [names_normalize]
    exact List.destutter_idem s.names (· ≠ ·)
  · unfold normalize at hoff ⊢
    dsimp only at hoff ⊢
    split at hoff
    · next hon => rw [hon] at hoff; cases hoff
    · next hon => simp [hon]
  · unfold normalize
    dsimp only
    split
    · exact trim_trim _
    · rfl

theorem projected_iff :
    s.Projected ↔ ¬BlankBeforeSlashes s.proxy.controllerUrl ∧ s.names.Clustered := by
  rw [← normalize_normalize_iff, ← List.nodup_destutter_ne_iff]
  constructor
  · intro h
    exact ⟨h.again, h.distinct⟩
  · rintro ⟨hagain, hdistinct⟩
    exact ⟨hagain, hdistinct, fun name h => trimmed_of_mem_normalize h⟩

end Settings

/-! ## Patches that restate -/

section Patches

variable {s : Settings} {p : SettingsPatch}

theorem stored_eq_ok {request : SettingsRequest} {settings : Settings} :
    request.stored s = .ok settings ↔
      settings.validate = .ok () ∧ settings = (request.requested s).normalize := by
  rw [SettingsRequest.stored]
  cases hvalid : (request.requested s).normalize.validate with
  | error e =>
    simp only [Except.map, reduceCtorEq, false_iff, not_and]
    rintro h rfl
    rw [hvalid] at h
    cases h
  | ok =>
    simp only [Except.map, Except.ok.injEq]
    constructor
    · rintro rfl
      exact ⟨hvalid, rfl⟩
    · rintro ⟨-, rfl⟩
      rfl

/-- Reached settings pass their own check and stay as they are when normalised again. -/
theorem normalized_of_reachable
    (h : (settingsRuns fun s request =>
      ¬BlankBeforeSlashes (request.requested s).proxy.controllerUrl).Reachable s) :
    s.normalize = s ∧ s.validate = .ok () := by
  refine h.invariant (P := fun s => s.normalize = s ∧ s.validate = .ok ()) ?_ ?_
  · rintro _ rfl
    decide +kernel
  · rintro s s' hs ⟨request, hurl, rfl⟩
    cases hstored : request.stored s with
    | error e => exact hs
    | ok settings =>
      obtain ⟨hvalid, rfl⟩ := stored_eq_ok.mp hstored
      exact ⟨Settings.normalize_normalize_iff.mpr hurl, hvalid⟩

/-- Normalising is a projection onto lists of distinct names where no blank stands before the
slashes of the URL and equal names stand together; a patch that restates what is there then
changes nothing. -/
theorem settings_normalization (s : Settings) :
    (s.Projected ↔ ¬BlankBeforeSlashes s.proxy.controllerUrl ∧ s.names.Clustered) ∧
      ((settingsRuns fun s request =>
        ¬BlankBeforeSlashes (request.requested s).proxy.controllerUrl).Reachable s →
          ∀ p : SettingsPatch, p.apply s = s → (SettingsRequest.patch p).stored s = .ok s) := by
  refine ⟨Settings.projected_iff, fun hs p hp => ?_⟩
  obtain ⟨hnormal, hvalid⟩ := normalized_of_reachable hs
  rw [stored_eq_ok]
  exact ⟨hvalid, by rw [SettingsRequest.requested, hp, hnormal]⟩

end Patches

theorem settings_normalization_example :
    ∃ s : Settings, s.proxy.controllerUrl = "http://router:9090" ∧
      (SettingsRequest.patch {}).stored s = .ok s :=
  ⟨{ proxy := { enabled := true, controllerUrl := "http://router:9090" } }, rfl,
    (settings_normalization _).2
      (.step (.init rfl)
        ⟨.put { proxy := { enabled := true, controllerUrl := " http://router:9090/" } },
          mt (blankBeforeSlashes_iff _).mp (by decide +kernel), by decide +kernel⟩) {} rfl⟩

/-- A repeated name stays when another one stands between, and after a blank before the slashes
the empty patch is refused. -/
theorem normalized_again_changes :
    ¬({ boundary.interfaces := ["eth0", "wlan0", "eth0"] } : Settings).Projected ∧
      ∃ s, (settingsRuns fun _ _ => True).Reachable s ∧
        (SettingsRequest.patch {}).stored s = .error (.unprocessable
          "proxy.controller_url must be an http:// URL (https is not supported yet)") := by
  refine ⟨fun h => absurd h.distinct (by decide +kernel),
    { proxy := { enabled := true, controllerUrl := "http:// " } },
    .step (.init rfl)
      ⟨.put { proxy := { enabled := true, controllerUrl := "http:// /" } }, trivial, ?_⟩, ?_⟩
  · decide +kernel
  · decide +kernel

end ZimaScope
