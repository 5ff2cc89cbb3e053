import BackendTemplate.Templates

/-!
# Pages and Emails

The templates of the service, and what the controllers and the outbox worker fill them with. Names of
clients and scopes, error details, challenges and tokens come from outside. None of them changes the
markup of a page: this is the markup of the same page with blanks in their place.

## Main results

* `page_markup` — the markup of a page is that of its outline.
* `resetForm_keeps_token` — the form for a new password has the token it was opened with.
-/

namespace BackendTemplate

open Template

/-! ### Templates

What stands in the `style` element of a page is left out. -/

/-- `templates/verify.html`. -/
def verifyTemplate : List Part :=
  [.lit r#"<!DOCTYPE html>
<html>
<head><meta charset="utf-8"></head>
<body>
<h2>Verify your email</h2>
<p>Click the link below to verify your email address:</p>
<p><a href=""#,
   .value "action_url",
   .lit r#"">Verify Email</a></p>
<p>Or copy and paste this URL: "#,
   .value "action_url",
   .lit "</p>
<p>This link expires in ",
   .value "expires_in_hours",
   .lit " hours.</p>
</body>
</html>"]

/-- `templates/reset_password.html`. -/
def resetPasswordTemplate : List Part :=
  [.lit r#"<!DOCTYPE html>
<html>
<head><meta charset="utf-8"></head>
<body>
<h2>Reset your password</h2>
<p>Click the link below to reset your password:</p>
<p><a href=""#,
   .value "action_url",
   .lit r#"">Reset Password</a></p>
<p>Or copy and paste this URL: "#,
   .value "action_url",
   .lit "</p>
<p>This link expires in ",
   .value "expires_in_hours",
   .lit " hours.</p>
<p>If you did not request a password reset, please ignore this email.</p>
</body>
</html>"]

/-- `templates/login.html`. -/
def loginTemplate : List Part :=
  [.lit r#"<!DOCTYPE html>
<html lang="en">
<head>
  <meta charset="UTF-8">
  <meta name="viewport" content="width=device-width, initial-scale=1.0">
  <title>Sign in</title>
  <style></style>
</head>
<body>
  <div class="card">
    <h1>Sign in</h1>
    "#,
   .cond "error"
     [.lit r#"
    <div class="error">"#,
      .value "error",
      .lit "</div>
    "]
     [],
   .lit r#"
    <form method="post" action="/auth/login">
      "#,
   .safe "csrf_input",
   .lit r#"
      <input type="hidden" name="login_challenge" value=""#,
   .value "login_challenge",
   .lit r#"">
      "#,
   .cond "requires_two_factor"
     [.lit r#"
      <input type="hidden" name="pending_token" value=""#,
      .value "pending_token",
      .lit r#"">
      <div class="form-group">
        <label for="two_factor_code">Two-factor code</label>
        <input type="text" id="two_factor_code" name="two_factor_code" inputmode="numeric" required autofocus>
      </div>
      <button type="submit">Verify</button>
      "#]
     [.lit r#"
      <div class="form-group">
        <label for="username">Username</label>
        <input type="text" id="username" name="username" required autofocus>
      </div>
      <div class="form-group">
        <label for="password">Password</label>
        <input type="password" id="password" name="password" required>
      </div>
      <button type="submit">Continue</button>
      "#],
   .lit "
    </form>
  </div>
</body>
</html>"]

/-- `templates/consent.html`. -/
def consentTemplate : List Part :=
  [.lit r#"<!DOCTYPE html>
<html lang="en">
<head>
  <meta charset="UTF-8">
  <meta name="viewport" content="width=device-width, initial-scale=1.0">
  <title>Authorize application</title>
  <style></style>
</head>
<body>
  <div class="card">
    <h1>Authorization required</h1>
    <p>"#,
   .value "client_name",
   .lit r#" wants to access your account</p>
    <div class="client-info">
      <div class="client-name">"#,
   .value "client_name",
   .lit "</div>
      ",
   .cond "client_uri"
     [.lit r#"
      <div class="client-uri">"#,
      .value "client_uri",
      .lit "</div>
      "]
     [],
   .lit r#"
    </div>
    <h2>This will allow:</h2>
    <ul class="scope-list">
      "#,
   .each "scope" "scopes"
     [.lit "
      <li>",
      .value "scope",
      .lit "</li>
      "],
   .lit r#"
    </ul>
    <div class="actions">
      <form method="post" action="/auth/consent" style="flex:1">
        "#,
   .safe "csrf_input",
   .lit r#"
        <input type="hidden" name="consent_challenge" value=""#,
   .value "consent_challenge",
   .lit r#"">
        <input type="hidden" name="approve" value="true">
        <button type="submit" class="btn-allow">Allow</button>
      </form>
      <form method="post" action="/auth/consent" style="flex:1">
        "#,
   .safe "csrf_input",
   .lit r#"
        <input type="hidden" name="consent_challenge" value=""#,
   .value "consent_challenge",
   .lit r#"">
        <input type="hidden" name="approve" value="false">
        <button type="submit" class="btn-deny">Deny</button>
      </form>
    </div>
  </div>
</body>
</html>"#]

/-- `account/reset_password.html`. -/
def resetFormTemplate : List Part :=
  [.lit r#"<!doctype html>
<html lang="en">
<head>
  <meta charset="utf-8">
  <meta name="viewport" content="width=device-width, initial-scale=1">
  <title>Choose a new password</title>
  <style></style>
</head>
<body>
  <main class="card">
    <h1>Choose a new password</h1>
    <form method="post" action="/v1/auth/reset-password">
      <input type="hidden" name="token" value=""#,
   .value "token",
   .lit r#"">
      <label for="new_password">New password</label>
      <input id="new_password" name="new_password" type="password" required autocomplete="new-password">
      <button type="submit">Set password</button>
    </form>
    <p class="hint">At least 8 characters, with an upper- and lower-case letter, a digit and one
      symbol. Setting a new password signs you out everywhere.</p>
  </main>
</body>
</html>"#]

/-- `account/result.html`. -/
def resultTemplate : List Part :=
  [.lit r#"<!doctype html>
<html lang="en">
<head>
  <meta charset="utf-8">
  <meta name="viewport" content="width=device-width, initial-scale=1">
  <title>"#,
   .cond "error"
     [.lit "Something went wrong"]
     [.lit "All set"],
   .lit r#"</title>
  <style></style>
</head>
<body>
  <main class="card">
    "#,
   .cond "error"
     [.lit r#"
      <h1 class="error">Something went wrong</h1>
      <p>"#,
      .value "error",
      .lit "</p>
    "]
     [.lit "
      <h1>All set</h1>
      <p>",
      .value "message",
      .lit "</p>
    "],
   .lit "
  </main>
</body>
</html>"]

/-! ### Pages -/

/-- **What the service shows**: `_login_template`, `consent_form`, `reset_password_form`, the result
of `verify_email_landing`, and the two emails of `_send_email`. -/
inductive Page
  | login (loginChallenge error : String) (requiresTwoFactor : Bool) (pendingToken : String)
  | consent (consentChallenge clientName : String) (scopes : List String)
  | resetForm (token : String)
  | result (message error : String)
  | verifyEmail (actionUrl : String) (expiresInHours : ℕ)
  | resetPasswordEmail (actionUrl : String) (expiresInHours : ℕ)
deriving DecidableEq

namespace Page

/-- The template of a page. -/
def template : Page → List Part
  | login _ _ _ _ => loginTemplate
  | consent _ _ _ => consentTemplate
  | resetForm _ => resetFormTemplate
  | result _ _ => resultTemplate
  | verifyEmail _ _ => verifyTemplate
  | resetPasswordEmail _ _ => resetPasswordTemplate

/-- The values of a page. A page with a form has the input against forged requests besides. -/
def values (csrfInput : String) : Page → Context
  | login loginChallenge error requiresTwoFactor pendingToken =>
      context [("csrf_input", .text csrfInput.toList),
        ("login_challenge", .text loginChallenge.toList), ("error", .text error.toList),
        ("requires_two_factor", .bool requiresTwoFactor),
        ("pending_token", .text pendingToken.toList)]
  | consent consentChallenge clientName scopes =>
      context [("csrf_input", .text csrfInput.toList),
        ("consent_challenge", .text consentChallenge.toList),
        ("client_name", .text clientName.toList), ("scopes", .texts (scopes.map String.toList))]
  | resetForm token => context [("token", .text token.toList)]
  | result message error =>
      context [("message", .text message.toList), ("error", .text error.toList)]
  | verifyEmail actionUrl expiresInHours =>
      context [("action_url", .text actionUrl.toList),
        ("expires_in_hours", .text (Nat.toDigits 10 expiresInHours))]
  | resetPasswordEmail actionUrl expiresInHours =>
      context [("action_url", .text actionUrl.toList),
        ("expires_in_hours", .text (Nat.toDigits 10 expiresInHours))]

/-- The text of a page. -/
def html (csrfInput : String) (page : Page) : List Char :=
  render (page.values csrfInput) page.template

/-- A blank, for a text that is there. -/
def blank (s : String) : String := if s = "" then "" else "_"

/-- **The outline of a page**: which page it is, whether there is an error on it and whether it asks
for a second factor, and how many scopes it lists. -/
def outline : Page → Page
  | login _ error requiresTwoFactor _ => login "" (blank error) requiresTwoFactor ""
  | consent _ _ scopes => consent "" "" (scopes.map fun _ => "")
  | resetForm _ => resetForm ""
  | result _ error => result "" (blank error)
  | verifyEmail _ _ => verifyEmail "" 0
  | resetPasswordEmail _ _ => resetPasswordEmail "" 0

end Page

theorem truthy_blank (s : String) :
    (Value.text (Page.blank s).toList).truthy = (Value.text s.toList).truthy := by
  rw [Page.blank]
  split
  · rename_i hempty
    rw [hempty]
  · rename_i hne
    have hlist : s.toList ≠ [] := fun h => hne (String.toList_eq_nil_iff.mp h)
    cases hs : s.toList with
    | nil => exact absurd hs hlist
    | cons c cs => rfl

/-- **What a page says does not change its markup.** -/
theorem page_markup (csrfInput : String) (page : Page) :
    markup (page.html csrfInput) = markup (page.outline.html csrfInput) := by
  cases page with
  | login loginChallenge error requiresTwoFactor pendingToken =>
      refine markup_render ?_
      simp [Page.template, Page.outline, loginTemplate, Alike, AlikePart, Page.values, context,
        truthy_blank]
  | consent consentChallenge clientName scopes =>
      refine markup_render ?_
      simp [Page.template, consentTemplate, Alike, AlikePart, Page.values, context, Page.outline,
        Value.toList]
  | resetForm token =>
      refine markup_render ?_
      simp [Page.template, resetFormTemplate, Alike, AlikePart]
  | result message error =>
      refine markup_render ?_
      simp [Page.template, Page.outline, resultTemplate, Alike, AlikePart, Page.values, context,
        truthy_blank]
  | verifyEmail actionUrl expiresInHours =>
      refine markup_render ?_
      simp [Page.template, verifyTemplate, Alike, AlikePart]
  | resetPasswordEmail actionUrl expiresInHours =>
      refine markup_render ?_
      simp [Page.template, resetPasswordTemplate, Alike, AlikePart]

/-- **The form for a new password has the token it was opened with.** -/
theorem resetForm_keeps_token (csrfInput token : String) :
    attributeValue "value" ((Page.resetForm token).html csrfInput) = some token.toList :=
  attributeValue_render _ []
    (by
      rw [String.toList_ofList, String.toList_ofList]
      decide +kernel)
    (by
      rw [String.toList_ofList]
      decide +kernel)

end BackendTemplate
