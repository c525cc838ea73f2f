import Nook.EventLog.Canonical
import Nook.Lib.OrderedMap
import Nook.Secrets.SetupKey

set_option autoImplicit false

namespace Nook.Secrets

open Nook.EventLog Nook.Lib

/-- The third-party URL parser: for a URL it accepts, the host, if it has one. -/
class UrlParser where
  hostStr : Str → Option (Option Str)

structure WebsiteHost where
  asStr : Str
  deriving DecidableEq

/-- The text after every leading `www.`. -/
def trimStartWww : Str → Str
  | 'w' :: 'w' :: 'w' :: '.' :: rest => trimStartWww rest
  | text => text

def containsText (raw part : Str) : Bool := decide (part <:+: raw)

/-- Canonicalize a website or issuer text to its host, if it has one. -/
def WebsiteHost.normalize [UrlParser] (raw : Str) : Option WebsiteHost :=
  let value := trim raw
  if value.isEmpty then none
  else
    let parsed :=
      match UrlParser.hostStr value with
      | some host => some host
      | none =>
        if containsText value "://".toList then none
        else UrlParser.hostStr ("https://".toList ++ value)
    let host := trimStartWww (parsed.join.getD [])
    if host.isEmpty then none else some ⟨host⟩

/-- Popular authenticator issuer labels mapped to website hosts. -/
structure AuthenticatorIssuerHosts where
  byIssuer : BTreeMap Str Str

structure AuthenticatorWebsiteHostRequest where
  websiteUrl : Str
  issuer : Str

inductive AuthenticatorHostResolution where
  | resolved (host : WebsiteHost)
  | unmappedIssuer
  deriving DecidableEq

def AuthenticatorHostResolution.ofHost : Option WebsiteHost → AuthenticatorHostResolution
  | some host => resolved host
  | none => unmappedIssuer

def AuthenticatorWebsiteHostRequest.explicitOrDomainHost [UrlParser]
    (request : AuthenticatorWebsiteHostRequest) : AuthenticatorHostResolution :=
  match WebsiteHost.normalize request.websiteUrl with
  | some fromUrl => .resolved fromUrl
  | none =>
    let issuer := trim request.issuer
    if issuer.isEmpty || !(containsText issuer "://".toList || issuer.contains '.') then
      .unmappedIssuer
    else .ofHost (WebsiteHost.normalize issuer)

namespace AuthenticatorIssuerHosts

/-- Normalize an authenticator issuer for table lookup. -/
def normalizeLookupKey (raw : Str) : Str :=
  (raw.filter fun char => char.isAlphanum || char == '-' || char == '_').map Char.toLower

/-- Admit one entry of the catalog; a later one of the same key wins. -/
def insertEntry (hosts : BTreeMap Str Str) (entry : Str × Str) : Option (BTreeMap Str Str) :=
  let key := normalizeLookupKey entry.1
  let host := trim entry.2
  if key.isEmpty || host.isEmpty then none else some (hosts.insert key host)

/-- The catalog of the entries of a JSON object, in their order. -/
def deserialize (entries : List (Str × Str)) : Option AuthenticatorIssuerHosts := do
  return ⟨← entries.foldlM insertEntry ∅⟩

/-- The bundled `authenticator_issuer_hosts.json`. -/
def bundledEntries : List (Str × Str) := [
  ("1password", "1password.com"), ("adobe", "adobe.com"), ("amazon", "amazon.com"),
  ("apple", "apple.com"), ("atlassian", "atlassian.com"), ("auth0", "auth0.com"),
  ("aws", "aws.amazon.com"), ("azure", "azure.com"), ("binance", "binance.com"),
  ("bitbucket", "bitbucket.org"), ("bitwarden", "bitwarden.com"), ("chatgpt", "chatgpt.com"),
  ("cloudflare", "cloudflare.com"), ("coinbase", "coinbase.com"),
  ("digitalocean", "digitalocean.com"), ("discord", "discord.com"), ("disney", "disneyplus.com"),
  ("dropbox", "dropbox.com"), ("ea", "ea.com"), ("epicgames", "epicgames.com"),
  ("facebook", "facebook.com"), ("fastmail", "fastmail.com"), ("figma", "figma.com"),
  ("gcp", "cloud.google.com"), ("github", "github.com"), ("gitlab", "gitlab.com"),
  ("gmail", "gmail.com"), ("google", "google.com"), ("heroku", "heroku.com"),
  ("hotmail", "hotmail.com"), ("hubspot", "hubspot.com"), ("hulu", "hulu.com"),
  ("icloud", "icloud.com"), ("instagram", "instagram.com"), ("jira", "atlassian.com"),
  ("kraken", "kraken.com"), ("lastpass", "lastpass.com"), ("linkedin", "linkedin.com"),
  ("live", "live.com"), ("meta", "meta.com"), ("microsoft", "microsoft.com"),
  ("namecheap", "namecheap.com"), ("netflix", "netflix.com"), ("netlify", "netlify.com"),
  ("notion", "notion.so"), ("nvidia", "nvidia.com"), ("office", "office.com"),
  ("office365", "office.com"), ("okta", "okta.com"), ("openai", "openai.com"),
  ("outlook", "outlook.com"), ("paypal", "paypal.com"), ("proton", "proton.me"),
  ("protonmail", "proton.me"), ("reddit", "reddit.com"), ("salesforce", "salesforce.com"),
  ("shopify", "shopify.com"), ("slack", "slack.com"), ("spotify", "spotify.com"),
  ("steam", "steampowered.com"), ("stripe", "stripe.com"), ("tumblr", "tumblr.com"),
  ("twitch", "twitch.tv"), ("twitter", "twitter.com"), ("ubisoft", "ubisoft.com"),
  ("vercel", "vercel.com"), ("wordpress", "wordpress.com"), ("x", "x.com"),
  ("yahoo", "yahoo.com"), ("youtube", "youtube.com"), ("zoho", "zoho.com")].map
    fun entry => (entry.1.toList, entry.2.toList)

def requireBundled : Except AuthenticatorIssuerHostsError AuthenticatorIssuerHosts :=
  match deserialize bundledEntries with
  | some hosts => .ok hosts
  | none => .error .invalidBundledCatalog

/-- Look up a popular-service host for a brand issuer label. -/
def mappedHost (hosts : AuthenticatorIssuerHosts) (issuer : Str) : AuthenticatorHostResolution :=
  let key := normalizeLookupKey issuer
  if key.isEmpty then .unmappedIssuer else .ofHost (hosts.byIssuer[key]?.map WebsiteHost.mk)

/-- Order: explicit website, domain-like issuer text, then bundled map. -/
def resolveWebsiteHost [UrlParser] (hosts : AuthenticatorIssuerHosts)
    (request : AuthenticatorWebsiteHostRequest) : AuthenticatorHostResolution :=
  match request.explicitOrDomainHost with
  | .resolved host => .resolved host
  | .unmappedIssuer => hosts.mappedHost request.issuer

/-- The bundled catalog is valid. -/
theorem requireBundled_ok : ∃ hosts, requireBundled = .ok hosts := by
  have valid : ∀ entry ∈ bundledEntries,
      ((normalizeLookupKey entry.1).isEmpty || (trim entry.2).isEmpty) = false := by decide +kernel
  have folded : ∀ (entries : List (Str × Str)) (start : BTreeMap Str Str),
      (∀ entry ∈ entries,
        ((normalizeLookupKey entry.1).isEmpty || (trim entry.2).isEmpty) = false) →
      ∃ hosts, entries.foldlM insertEntry start = some hosts := by
    intro entries
    induction entries with
    | nil => exact fun start _ => ⟨start, rfl⟩
    | cons entry entries ih =>
      intro start each
      have first := each entry (List.mem_cons_self ..)
      rw [List.foldlM_cons]
      simp only [insertEntry, first, Bool.false_eq_true, if_false]
      exact ih _ fun other member => each other (List.mem_cons_of_mem _ member)
  obtain ⟨hosts, built⟩ := folded bundledEntries ∅ valid
  refine ⟨⟨hosts⟩, ?_⟩
  unfold requireBundled deserialize
  rw [built]
  rfl

end AuthenticatorIssuerHosts

end Nook.Secrets
