import W9pt.Session.Retention
import W9pt.Session.Leaks
import W9pt.Session.Confinement
import W9pt.State.Feed
import W9pt.Storage.Publication
import W9pt.Storage.Canonical
import W9pt.Session.Resumption
import W9pt.State.Idempotence
import W9pt.State.Answered
import W9pt.Engine.ResultCodec
import W9pt.Session.Flushes
import W9pt.Storage.Cursor
import W9pt.Postgres.KeyCodec
import W9pt.Storage.Words
